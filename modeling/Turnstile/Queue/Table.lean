import Turnstile.Thread
import Turnstile.Policy
import Turnstile.Queue.Handle

/-!
# Queues and the table that holds them

A queue is the wait set of one shared resource: at most one owner, and waiters in the order in
which they arrived. Queues live in slots.

* **`QueueTable.insert`** fills the first free slot, and makes a new one only when all are
  taken.
* **`QueueTable.get?`** and **`QueueTable.modify`** reach a queue only through a handle whose
  generation is the slot's own.
* **`QueueTable.remove`** empties the slot and moves it on to the next generation, so that the
  handle goes stale. The generation is a 32-bit word and wraps.
* **The view** of a table is `get?`: `get?_insert`, `get?_modify` and `get?_remove` say what a
  write does to every handle.
-/

namespace Turnstile

/-- The wait set of one shared resource. -/
structure Queue where
  policy : Policy
  /-- Whether waiters lend their weight to the owner. -/
  donation : Bool
  owner : Option ThreadId
  /-- The waiters in order of arrival. -/
  waiting : List ThreadId
deriving DecidableEq, Repr, Inhabited

namespace Queue

/-- A queue that nobody owns and nobody waits on. -/
def fresh (policy : Policy) (donation : Bool) : Queue :=
  { policy, donation, owner := none, waiting := [] }

/-- Whether nobody waits. -/
def isEmpty (queue : Queue) : Bool := queue.waiting.isEmpty

/-- The number of waiters. -/
def size (queue : Queue) : Nat := queue.waiting.length

end Queue

/-- A place for one queue. -/
structure Slot where
  /-- How often the place has been emptied, modulo 2^32. -/
  generation : UInt32
  queue : Option Queue
deriving DecidableEq, Repr, Inhabited

/-- Whether the place holds no queue. -/
def Slot.isFree (slot : Slot) : Bool := slot.queue.isNone

/-- All queues, by handle. -/
structure QueueTable where
  slots : List Slot
deriving DecidableEq, Repr, Inhabited

namespace QueueTable

/-- The table without slots. -/
def empty : QueueTable := ⟨[]⟩

/-- The queue behind a handle. A handle of another generation reaches nothing. -/
def get? (table : QueueTable) (id : QueueId) : Option Queue :=
  match table.slots[id.index]? with
  | some slot => if slot.generation = id.generation then slot.queue else none
  | none => none

/-- Put the queue into the first free slot, or into a new one at the end. -/
def insert (table : QueueTable) (queue : Queue) : QueueId × QueueTable :=
  let index := table.slots.findIdx Slot.isFree
  match table.slots[index]? with
  | some slot =>
    (QueueId.pack slot.generation index,
      ⟨table.slots.set index { slot with queue := some queue }⟩)
  | none => (QueueId.pack 0 index, ⟨table.slots ++ [⟨0, some queue⟩]⟩)

/-- Change the queue behind a handle; behind a stale handle there is nothing to change. -/
def modify (table : QueueTable) (id : QueueId) (f : Queue → Queue) : QueueTable :=
  match table.get? id with
  | some queue => ⟨table.slots.set id.index ⟨id.generation, some (f queue)⟩⟩
  | none => table

/-- Take the queue out of its slot, which moves on to its next generation. -/
def remove (table : QueueTable) (id : QueueId) : Option (Queue × QueueTable) :=
  match table.get? id with
  | some queue => some (queue, ⟨table.slots.set id.index ⟨id.generation + 1, none⟩⟩)
  | none => none

/-- The number of queues held. -/
def size (table : QueueTable) : Nat := table.slots.countP fun slot => !slot.isFree

/-! ## What a write does to look-ups -/

@[simp] theorem get?_empty (id : QueueId) : empty.get? id = none := rfl

/-- A handle reaches a queue exactly when the slot holds it in the handle's generation. -/
theorem get?_eq_some_iff {table : QueueTable} {id : QueueId} {queue : Queue} :
    table.get? id = some queue ↔ table.slots[id.index]? = some ⟨id.generation, some queue⟩ := by
  unfold get?
  cases h : table.slots[id.index]? with
  | none => simp
  | some slot =>
    obtain ⟨generation, held⟩ := slot
    by_cases hg : generation = id.generation <;> simp [hg]

/-- The write of one slot is seen by the handles of that slot alone. -/
theorem get?_set {table : QueueTable} {index : Nat} (bound : index < table.slots.length)
    (slot : Slot) (other : QueueId) :
    get? ⟨table.slots.set index slot⟩ other =
      if other.index = index then
        if slot.generation = other.generation then slot.queue else none
      else table.get? other := by
  unfold get?
  by_cases h : other.index = index
  · simp [h, bound]
  · simp [h, Ne.symm h]

theorem index_lt_of_get? {table : QueueTable} {id : QueueId} {queue : Queue}
    (h : table.get? id = some queue) : id.index < table.slots.length := by
  rw [get?_eq_some_iff] at h
  exact (List.getElem?_eq_some_iff.mp h).1

/-- A handle of a slot that another handle reaches is that handle or reaches nothing. -/
theorem get?_eq_none_of_index {table : QueueTable} {id other : QueueId} {queue : Queue}
    (h : table.get? id = some queue) (index : other.index = id.index) (ne : other ≠ id) :
    table.get? other = none := by
  rw [get?_eq_some_iff] at h
  have generation : id.generation ≠ other.generation := fun hg =>
    ne (QueueId.eq_of_index_of_generation index hg.symm)
  simp [get?, index, h, generation]

theorem get?_modify (table : QueueTable) (id other : QueueId) (f : Queue → Queue) :
    (table.modify id f).get? other =
      if other = id then (table.get? id).map f else table.get? other := by
  unfold modify
  cases h : table.get? id with
  | none =>
    by_cases ho : other = id
    · simp [ho, h]
    · simp [ho]
  | some queue =>
    simp only [get?_set (index_lt_of_get? h)]
    by_cases ho : other = id
    · simp [ho]
    · rw [if_neg ho]
      by_cases hi : other.index = id.index
      · have hg : id.generation ≠ other.generation := fun hg =>
          ho (QueueId.eq_of_index_of_generation hi hg.symm)
        rw [if_pos hi, if_neg hg, get?_eq_none_of_index h hi ho]
      · rw [if_neg hi]

theorem get?_remove {table rest : QueueTable} {id : QueueId} {queue : Queue}
    (h : table.remove id = some (queue, rest)) (other : QueueId) :
    rest.get? other = if other = id then none else table.get? other := by
  unfold remove at h
  cases hq : table.get? id with
  | none => simp [hq] at h
  | some held =>
    simp only [hq, Option.some.injEq, Prod.mk.injEq] at h
    obtain ⟨-, rfl⟩ := h
    rw [get?_set (index_lt_of_get? hq)]
    by_cases ho : other = id
    · simp [ho]
    · rw [if_neg ho]
      by_cases hi : other.index = id.index
      · rw [if_pos hi, get?_eq_none_of_index hq hi ho]
        simp
      · rw [if_neg hi]

/-- A new slot at the end is seen by the handles of its index alone. -/
theorem get?_append (table : QueueTable) (slot : Slot) (other : QueueId) :
    get? ⟨table.slots ++ [slot]⟩ other =
      if other.index = table.slots.length then
        if slot.generation = other.generation then slot.queue else none
      else table.get? other := by
  unfold get?
  by_cases h : other.index = table.slots.length
  · simp [h]
  · rw [if_neg h]
    rcases Nat.lt_or_gt_of_ne h with below | above
    · rw [List.getElem?_append_left below]
    · rw [List.getElem?_eq_none (by simp; omega), List.getElem?_eq_none (by omega)]

/-- A queue placed where no handle reached anything is reached by one handle, if the index is not
too large for one. -/
theorem get?_placed_of_lt {table filled : QueueTable} {index : Nat} {generation : UInt32}
    {queue : Queue} (small : index < 4294967296)
    (free : ∀ other : QueueId, other.index = index → table.get? other = none)
    (placed : ∀ other : QueueId, filled.get? other =
      if other.index = index then if generation = other.generation then some queue else none
      else table.get? other) :
    table.get? (.pack generation index) = none ∧ ∀ other, filled.get? other =
      if other = .pack generation index then some queue else table.get? other := by
  have hindex := QueueId.index_pack_of_lt generation small
  refine ⟨free _ hindex, fun other => ?_⟩
  rw [placed]
  by_cases hi : other.index = index
  · by_cases hg : generation = other.generation
    · have ho : other = .pack generation index :=
        QueueId.eq_of_index_of_generation (hi.trans hindex.symm) (by simp [hg])
      rw [if_pos hi, if_pos hg, if_pos ho]
    · have ho : other ≠ .pack generation index := by
        rintro rfl
        exact hg (by simp)
      rw [if_pos hi, if_neg hg, if_neg ho, free other hi]
  · have ho : other ≠ .pack generation index := by
      rintro rfl
      exact hi hindex
    rw [if_neg hi, if_neg ho]

/-- Storing a queue fills the first free slot, or a new one at the end. -/
theorem insert_places (table : QueueTable) (queue : Queue) : ∃ generation,
    (table.insert queue).1 = .pack generation (table.slots.findIdx Slot.isFree) ∧
      (∀ other : QueueId, other.index = table.slots.findIdx Slot.isFree →
        table.get? other = none) ∧
      ∀ other : QueueId, (table.insert queue).2.get? other =
        if other.index = table.slots.findIdx Slot.isFree then
          if generation = other.generation then some queue else none
        else table.get? other := by
  have le : table.slots.findIdx Slot.isFree ≤ table.slots.length := List.findIdx_le_length
  rcases Nat.lt_or_eq_of_le le with bound | full
  · have free := List.findIdx_getElem (w := bound)
    have hq : (table.slots[table.slots.findIdx Slot.isFree]).queue = none := by
      simpa [Slot.isFree] using free
    simp only [insert, List.getElem?_eq_getElem bound]
    refine ⟨_, rfl, fun other hi => ?_, get?_set bound _⟩
    simp [get?, hi, List.getElem?_eq_getElem bound, hq]
  · simp only [insert, full, List.getElem?_eq_none (Nat.le_refl _)]
    exact ⟨0, rfl, fun other hi => by simp [get?, hi], get?_append table _⟩

/-- Storing a queue makes one handle live that was not, and changes no other look-up. Beyond
2^32 slots the new slot has no handle of its own, and no look-up changes at all. -/
theorem get?_insert (table : QueueTable) (queue : Queue) :
    (table.get? (table.insert queue).1 = none ∧ ∀ other,
      (table.insert queue).2.get? other =
        if other = (table.insert queue).1 then some queue else table.get? other) ∨
    ∀ other, (table.insert queue).2.get? other = table.get? other := by
  obtain ⟨generation, handle, free, placed⟩ := insert_places table queue
  by_cases small : table.slots.findIdx Slot.isFree < 4294967296
  · rw [handle]
    exact .inl (get?_placed_of_lt small free placed)
  · refine .inr fun other => ?_
    have := other.index_lt
    rw [placed, if_neg (by omega)]

/-- Fewer than 2^32 queues leave a slot free among the first 2^32, or still to be made. -/
theorem findIdx_isFree_lt {table : QueueTable} (room : table.size < 4294967296) :
    table.slots.findIdx Slot.isFree < 4294967296 := by
  refine Nat.lt_of_not_le fun full => Nat.not_le_of_lt room ?_
  have taken : (table.slots.take 4294967296).countP (fun slot => !slot.isFree) = 4294967296 := by
    rw [List.countP_eq_length.mpr, List.length_take]
    · have : table.slots.findIdx Slot.isFree ≤ table.slots.length := List.findIdx_le_length
      omega
    · intro slot held
      obtain ⟨index, bound, rfl⟩ := List.mem_take_iff_getElem.mp held
      have := List.not_of_lt_findIdx (show index < table.slots.findIdx Slot.isFree by omega)
      simpa using this
  rw [← taken]
  exact (List.take_sublist _ _).countP_le

/-- Among fewer than 2^32 queues a new one always has a handle of its own. -/
theorem get?_insert_of_size_lt {table : QueueTable} (room : table.size < 4294967296)
    (queue : Queue) : table.get? (table.insert queue).1 = none ∧ ∀ other,
      (table.insert queue).2.get? other =
        if other = (table.insert queue).1 then some queue else table.get? other := by
  obtain ⟨generation, handle, free, placed⟩ := insert_places table queue
  rw [handle]
  exact get?_placed_of_lt (findIdx_isFree_lt room) free placed

/-- Behind 2^32 queues a new one is given the first handle again, which reaches the queue in the
first slot if that has never been emptied. -/
theorem insert_beyond {table : QueueTable} (full : ∀ slot ∈ table.slots, slot.isFree = false)
    (count : table.slots.length = 4294967296) (queue : Queue) :
    (table.insert queue).1 = .pack 0 0 := by
  have last : table.slots.findIdx Slot.isFree = table.slots.length :=
    List.findIdx_eq_length.mpr full
  unfold insert
  dsimp only
  rw [last, List.getElem?_eq_none (Nat.le_refl _)]
  show QueueId.pack 0 table.slots.length = _
  rw [count]
  simp [QueueId.pack]

/-! ## How many queues there are -/

/-- What is written over a queue counts in its place. -/
theorem size_set {table : QueueTable} {id : QueueId} {queue : Queue}
    (live : table.get? id = some queue) (slot : Slot) :
    size ⟨table.slots.set id.index slot⟩ + 1 = table.size + if slot.isFree then 0 else 1 := by
  have bound := index_lt_of_get? live
  have held := (List.getElem?_eq_some_iff.mp (get?_eq_some_iff.mp live)).2
  have counted : 0 < table.slots.countP fun slot => !slot.isFree :=
    List.countP_pos_iff.mpr ⟨_, List.getElem_mem bound, by simp [held, Slot.isFree]⟩
  have taken : (!(table.slots[id.index]).isFree) = true := by simp [held, Slot.isFree]
  rw [size, size, List.countP_set bound, if_pos taken]
  cases slot.isFree <;> simp <;> omega

theorem size_modify (table : QueueTable) (id : QueueId) (f : Queue → Queue) :
    (table.modify id f).size = table.size := by
  unfold modify
  cases live : table.get? id with
  | none => rfl
  | some queue =>
    have counts := size_set live ⟨id.generation, some (f queue)⟩
    rw [if_neg (by simp [Slot.isFree])] at counts
    exact Nat.add_right_cancel counts

theorem size_remove {table rest : QueueTable} {id : QueueId} {queue : Queue}
    (h : table.remove id = some (queue, rest)) : rest.size + 1 = table.size := by
  unfold remove at h
  cases live : table.get? id with
  | none => simp [live] at h
  | some held =>
    simp only [live, Option.some.injEq, Prod.mk.injEq] at h
    obtain ⟨-, rfl⟩ := h
    exact size_set live ⟨id.generation + 1, none⟩

theorem size_insert (table : QueueTable) (queue : Queue) :
    (table.insert queue).2.size = table.size + 1 := by
  have le : table.slots.findIdx Slot.isFree ≤ table.slots.length := List.findIdx_le_length
  rcases Nat.lt_or_eq_of_le le with bound | full
  · have free : (table.slots[table.slots.findIdx Slot.isFree]).isFree = true :=
      List.findIdx_getElem (w := bound)
    simp only [insert, List.getElem?_eq_getElem bound, size]
    rw [List.countP_set bound, free]
    simp [Slot.isFree]
  · simp only [insert, full, List.getElem?_eq_none (Nat.le_refl _), size, List.countP_append]
    simp [Slot.isFree]

theorem size_le_length (table : QueueTable) : table.size ≤ table.slots.length :=
  List.countP_le_length

end QueueTable

end Turnstile
