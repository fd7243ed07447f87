import Turnstile.Queue.Table

/-!
# Handles that have gone stale

A table changes by queues being stored and taken out (`QueueTable.Write`). Every slot counts in its
generation how often it has been emptied, modulo 2^32 (`generationAt_written`), so what a handle
reaches after any writes hangs on that number alone:

* **Short of 2^32** (`stale_until_wrapped`): while no slot has been emptied 2^32 times, a handle
  whose queue has been taken out reaches nothing, can be used for nothing and is not given out
  again, and all handles ever given out are different.
* **At 2^32** (`stale_handle_returns`): the generation has wrapped. The very first handle is given
  out again, and whoever kept it reaches the new queue with it.
-/

namespace Turnstile.QueueTable

/-- A change of which queues are stored. -/
inductive Write
  | insert (queue : Queue)
  | remove (id : QueueId)
deriving DecidableEq, Repr

/-- The table after one write. To take out what is not there changes nothing. -/
def Write.apply (table : QueueTable) : Write → QueueTable
  | insert queue => (table.insert queue).2
  | remove id => ((table.remove id).map (·.2)).getD table

/-- The table after writes in a row. -/
def written (table : QueueTable) (writes : List Write) : QueueTable :=
  writes.foldl Write.apply table

/-- The handles given out on the way. -/
def issued (table : QueueTable) : List Write → List QueueId
  | [] => []
  | .insert queue :: rest => (table.insert queue).1 :: issued (table.insert queue).2 rest
  | .remove id :: rest => issued ((Write.remove id).apply table) rest

/-- Whether a write empties slot `index`. -/
def Write.empties (table : QueueTable) (index : Nat) : Write → Bool
  | insert _ => false
  | remove id => id.index = index && (table.get? id).isSome

/-- How often slot `index` is emptied on the way. -/
def emptied (table : QueueTable) (index : Nat) : List Write → Nat
  | [] => 0
  | write :: rest =>
    (if write.empties table index then 1 else 0) + emptied (write.apply table) index rest

/-- Whether slot `index` holds a queue. -/
def occupied (table : QueueTable) (index : Nat) : Bool :=
  (table.slots[index]?).any fun slot => !slot.isFree

/-- The generation of slot `index`; a slot that is still to be made begins with 0. -/
def generationAt (table : QueueTable) (index : Nat) : UInt32 :=
  ((table.slots[index]?).map (·.generation)).getD 0

variable {table : QueueTable} {id : QueueId} {queue : Queue} {index : Nat}

/-! ## Slots and handles -/

/-- A handle reaches a queue as long as its slot is at the handle's generation and in use. -/
theorem get?_isSome_iff : (table.get? id).isSome = true ↔
    table.generationAt id.index = id.generation ∧ table.occupied id.index = true := by
  unfold get? generationAt occupied
  cases table.slots[id.index]? with
  | none => simp
  | some slot =>
    by_cases h : slot.generation = id.generation
    · cases hq : slot.queue <;> simp [h, Slot.isFree, hq]
    · simp [h]

theorem remove_eq_none (h : table.get? id = none) : table.remove id = none := by
  simp [remove, h]

theorem modify_eq_self (h : table.get? id = none) (f : Queue → Queue) :
    table.modify id f = table := by
  simp [modify, h]

/-! ## What a write does to slots -/

/-- A write keeps the slots there are. -/
theorem length_le_apply (write : Write) :
    table.slots.length ≤ (write.apply table).slots.length := by
  cases write with
  | insert queue =>
    simp only [Write.apply, insert]
    split <;> simp
  | remove id =>
    simp only [Write.apply, remove]
    cases table.get? id <;> simp

theorem length_le_written (writes : List Write) :
    table.slots.length ≤ (table.written writes).slots.length := by
  induction writes generalizing table with
  | nil => exact Nat.le_refl _
  | cons write rest ih => exact Nat.le_trans (length_le_apply write) ih

/-- A queue goes into a slot that was out of use, and its handle has the slot's generation. -/
theorem insert_handle (small : (table.insert queue).2.slots.length ≤ 4294967296) :
    table.occupied (table.insert queue).1.index = false ∧
      (table.insert queue).2.occupied (table.insert queue).1.index = true ∧
      (table.insert queue).1.generation = table.generationAt (table.insert queue).1.index := by
  have le : table.slots.findIdx Slot.isFree ≤ table.slots.length := List.findIdx_le_length
  rcases Nat.lt_or_eq_of_le le with bound | full
  · have free : table.slots[table.slots.findIdx Slot.isFree].queue = none := by
      simpa [Slot.isFree] using List.findIdx_getElem (w := bound)
    simp only [insert, List.getElem?_eq_getElem bound, List.length_set] at small ⊢
    rw [QueueId.index_pack_of_lt _ (by omega)]
    simp [occupied, generationAt, bound, free, Slot.isFree]
  · simp only [insert, full, List.getElem?_eq_none (Nat.le_refl _), List.length_append,
      List.length_cons, List.length_nil] at small ⊢
    rw [QueueId.index_pack_of_lt _ (by omega)]
    simp [occupied, generationAt, Slot.isFree]

/-- Storing a queue moves no slot on to another generation. -/
theorem generationAt_insert (index : Nat) :
    (table.insert queue).2.generationAt index = table.generationAt index := by
  have le : table.slots.findIdx Slot.isFree ≤ table.slots.length := List.findIdx_le_length
  rcases Nat.lt_or_eq_of_le le with bound | full
  · simp only [insert, List.getElem?_eq_getElem bound, generationAt, List.getElem?_set]
    split
    · rename_i same
      subst same
      simp [bound]
    · rfl
  · simp only [insert, full, List.getElem?_eq_none (Nat.le_refl _), generationAt]
    rcases Nat.lt_trichotomy index table.slots.length with below | rfl | above
    · rw [List.getElem?_append_left below]
    · simp
    · rw [List.getElem?_eq_none (by simp; omega), List.getElem?_eq_none (by omega)]

/-- Storing a queue puts no slot out of use. -/
theorem occupied_insert (used : table.occupied index = true) :
    (table.insert queue).2.occupied index = true := by
  have le : table.slots.findIdx Slot.isFree ≤ table.slots.length := List.findIdx_le_length
  rcases Nat.lt_or_eq_of_le le with bound | full
  · simp only [insert, List.getElem?_eq_getElem bound, occupied, List.getElem?_set]
    split
    · simp [Slot.isFree]
    · exact used
  · simp only [insert, full, List.getElem?_eq_none (Nat.le_refl _), occupied]
    rw [List.getElem?_append_left]
    · exact used
    · refine Nat.lt_of_not_le fun beyond => ?_
      simp [occupied, List.getElem?_eq_none beyond] at used

/-- Emptying a slot moves it on to the next generation; nothing else moves any slot on. -/
theorem generationAt_apply (write : Write) (index : Nat) :
    (write.apply table).generationAt index =
      table.generationAt index + if write.empties table index then 1 else 0 := by
  cases write with
  | insert queue => simpa [Write.apply, Write.empties] using generationAt_insert index
  | remove id =>
    cases live : table.get? id with
    | none => simp [Write.apply, Write.empties, remove, live]
    | some queue =>
      obtain ⟨bound, held⟩ := List.getElem?_eq_some_iff.mp (get?_eq_some_iff.mp live)
      simp only [Write.apply, remove, live, Option.map_some, Option.getD_some, Write.empties,
        generationAt, List.getElem?_set, Option.isSome_some, Bool.and_true, decide_eq_true_eq]
      by_cases same : id.index = index
      · subst same
        simp [held, index_lt_of_get? live]
      · simp [same]

/-- A slot goes out of use only by being emptied. -/
theorem occupied_apply {write : Write} (used : table.occupied index = true)
    (kept : write.empties table index = false) : (write.apply table).occupied index = true := by
  cases write with
  | insert queue => exact occupied_insert used
  | remove id =>
    cases live : table.get? id with
    | none => simpa [Write.apply, remove, live] using used
    | some queue =>
      have other : id.index ≠ index := by simpa [Write.empties, live] using kept
      simpa [Write.apply, remove, live, occupied, other] using used

/-! ## Runs of writes -/

/-- A slot's generation counts how often it has been emptied, modulo 2^32. -/
theorem generationAt_written (writes : List Write) (index : Nat) :
    (table.written writes).generationAt index =
      table.generationAt index + UInt32.ofNat (table.emptied index writes) := by
  induction writes generalizing table with
  | nil => simp [written, emptied]
  | cons write rest ih =>
    show ((write.apply table).written rest).generationAt index = _
    rw [ih, generationAt_apply, emptied, UInt32.ofNat_add]
    split <;> simp [UInt32.add_assoc]

theorem emptied_append (first second : List Write) (index : Nat) :
    table.emptied index (first ++ second) =
      table.emptied index first + (table.written first).emptied index second := by
  induction first generalizing table with
  | nil => simp [emptied, written]
  | cons write rest ih =>
    show _ + (write.apply table).emptied index (rest ++ second) = _
    rw [ih, ← Nat.add_assoc]
    rfl

theorem emptied_le_length (writes : List Write) :
    table.emptied index writes ≤ writes.length := by
  induction writes generalizing table with
  | nil => exact Nat.le_refl _
  | cons write rest ih =>
    have := @ih (write.apply table)
    rw [emptied, List.length_cons]
    split <;> omega

/-- A number of steps short of 2^32 does not lead back to where they began. -/
theorem add_ofNat_eq_self_iff {generation : UInt32} {count : Nat} :
    generation + UInt32.ofNat count = generation ↔ 4294967296 ∣ count := by
  have := generation.toNat_lt
  rw [← UInt32.toNat_inj, UInt32.toNat_add, UInt32.toNat_ofNat']
  omega

/-- A handle that was given out, `count` emptyings of its slot ago, is not given out again before
the slot has been emptied 2^32 times. -/
theorem notMem_issued {writes : List Write} (count : Nat)
    (behind : table.generationAt id.index = id.generation + UInt32.ofNat count)
    (inUse : count = 0 → table.occupied id.index = true)
    (short : count + table.emptied id.index writes < 4294967296)
    (small : (table.written writes).slots.length ≤ 4294967296) :
    id ∉ table.issued writes := by
  induction writes generalizing table count with
  | nil => simp [issued]
  | cons write rest ih =>
    have small' : (write.apply table).slots.length ≤ 4294967296 :=
      Nat.le_trans (length_le_written rest) small
    have moved := @generationAt_apply table write id.index
    cases write with
    | insert queue =>
      simp only [Write.empties, Bool.false_eq_true, if_false] at moved
      -- What is given out now is of the slot's own generation, and the slot is free: it has been
      -- emptied since `id` was given out, but too few times to come back to its generation.
      have notHere : id ≠ (table.insert queue).1 := by
        intro same
        obtain ⟨free, -, generation⟩ := insert_handle small'
        rw [← same] at free generation
        rw [generation] at behind
        have := add_ofNat_eq_self_iff.mp behind.symm
        rw [inUse (by omega)] at free
        cases free
      have notLater : id ∉ (table.insert queue).2.issued rest := ih count
        (by simpa [Write.apply, behind] using moved) (fun zero => occupied_insert (inUse zero))
        (by simpa [emptied, Write.empties, Write.apply] using short) small
      simp [issued, notHere, notLater]
    | remove other =>
      show id ∉ ((Write.remove other).apply table).issued rest
      cases empties : (Write.remove other).empties table id.index with
      | true =>
        rw [emptied, empties, if_pos rfl] at short
        refine ih (count + 1) ?_ (by omega) (by omega) small
        rw [moved, behind, empties, if_pos rfl, UInt32.ofNat_add, UInt32.add_assoc]
        rfl
      | false =>
        rw [emptied, empties] at short
        refine ih count ?_ (fun zero => occupied_apply (inUse zero) empties)
          (by simpa using short) small
        simp [moved, behind, empties]

/-- No two of the handles given out are the same while no slot is emptied 2^32 times. -/
theorem nodup_issued {writes : List Write}
    (short : ∀ index, table.emptied index writes < 4294967296)
    (small : (table.written writes).slots.length ≤ 4294967296) :
    (table.issued writes).Nodup := by
  induction writes generalizing table with
  | nil => exact List.nodup_nil
  | cons write rest ih =>
    have short' : ∀ index, (write.apply table).emptied index rest < 4294967296 := fun index =>
      Nat.lt_of_le_of_lt (Nat.le_add_left _ _) (short index)
    cases write with
    | remove id => exact ih short' small
    | insert queue =>
      obtain ⟨-, used, generation⟩ :=
        insert_handle (Nat.le_trans (length_le_written rest) small)
      refine List.nodup_cons.mpr ⟨?_, ih short' small⟩
      refine notMem_issued 0 ?_ (fun _ => used) ?_ small
      · simp [generation, generationAt_insert]
      · simpa [Write.apply] using short' (table.insert queue).1.index

/-! ## Stale handles -/

theorem written_append (first second : List Write) :
    table.written (first ++ second) = (table.written first).written second :=
  List.foldl_append

/-- Once a handle's queue has been taken out, the handle reaches something again exactly when its
slot is in use and has been emptied a multiple of 2^32 times since the handle was last good. Short
of 2^32 emptyings of any slot it reaches nothing for good and is not given out again, and no handle
is given out twice. -/
theorem stale_until_wrapped {earlier later : List Write}
    (live : ((empty.written earlier).get? id).isSome = true)
    (small : (empty.written (earlier ++ .remove id :: later)).slots.length ≤ 4294967296) :
    let removed := (Write.remove id).apply (empty.written earlier)
    let table := removed.written later
    (table.get? id = none ↔
      ¬ (4294967296 ∣ 1 + removed.emptied id.index later ∧ table.occupied id.index = true)) ∧
    ((∀ index, empty.emptied index (earlier ++ .remove id :: later) < 4294967296) →
      table.get? id = none ∧ table.remove id = none ∧ (∀ f, table.modify id f = table) ∧
      id ∉ removed.issued later ∧
      (empty.issued (earlier ++ .remove id :: later)).Nodup) := by
  intro removed table
  have final : empty.written (earlier ++ .remove id :: later) = table :=
    written_append earlier (.remove id :: later)
  obtain ⟨generation, -⟩ := get?_isSome_iff.mp live
  have empties : (Write.remove id).empties (empty.written earlier) id.index = true := by
    simp [Write.empties, live]
  -- the removal itself is the first emptying since the handle was good
  have behind : removed.generationAt id.index = id.generation + UInt32.ofNat 1 := by
    rw [generationAt_apply, generation, empties, if_pos rfl]
    rfl
  have now : table.generationAt id.index =
      id.generation + UInt32.ofNat (1 + removed.emptied id.index later) := by
    rw [generationAt_written, behind, UInt32.ofNat_add, UInt32.add_assoc]
  have exact : table.get? id = none ↔
      ¬ (4294967296 ∣ 1 + removed.emptied id.index later ∧ table.occupied id.index = true) := by
    rw [← add_ofNat_eq_self_iff, ← now, ← get?_isSome_iff]
    simp
  refine ⟨exact, fun short => ?_⟩
  have since : 1 + removed.emptied id.index later < 4294967296 := by
    have := short id.index
    rw [emptied_append, emptied, empties, if_pos rfl] at this
    exact Nat.lt_of_le_of_lt (Nat.le_add_left _ _) this
  have gone : table.get? id = none := exact.mpr fun wrapped => by
    have := Nat.le_of_dvd (by omega) wrapped.1
    omega
  refine ⟨gone, remove_eq_none gone, modify_eq_self gone, ?_, nodup_issued short small⟩
  exact notMem_issued 1 behind (by simp) since (by rwa [final] at small)

/-- A slot that is used again at once: the old handle is of no use, and the new one differs. -/
theorem stale_until_wrapped_reused :
    ∃ queue : Queue,
      ((empty.written [.insert queue]).get? (.pack 0 0)).isSome = true ∧
      ((empty.written [.insert queue, .remove (.pack 0 0), .insert queue]).get?
        (.pack 0 0)) = none ∧
      (empty.issued [.insert queue, .remove (.pack 0 0), .insert queue]).Nodup := by
  refine ⟨.fresh .priority true, by decide, ?_⟩
  obtain ⟨gone, -, -, -, distinct⟩ := (@stale_until_wrapped (.pack 0 0)
    [.insert (.fresh .priority true)] [.insert (.fresh .priority true)]
    (by decide) (by decide)).2
      fun _ => Nat.lt_of_le_of_lt (emptied_le_length _) (by decide)
  exact ⟨gone, distinct⟩

/-! ## The wrap -/

/-- Store a queue and take it out again, `count` times. The slot is the first, and each time its
generation is one further on. -/
def rounds (queue : Queue) (count : Nat) : List Write :=
  (List.range count).flatMap fun turn =>
    [.insert queue, .remove (.pack (UInt32.ofNat turn) 0)]

theorem rounds_succ (queue : Queue) (count : Nat) :
    rounds queue (count + 1) =
      rounds queue count ++ [.insert queue, .remove (.pack (UInt32.ofNat count) 0)] := by
  rw [rounds, List.range_succ, List.flatMap_append]
  rfl

/-- Taking out the only queue of a table leaves its slot at the next generation. -/
theorem remove_only (generation : UInt32) (queue : Queue) :
    (Write.remove (.pack generation 0)).apply ⟨[⟨generation, some queue⟩]⟩ =
      ⟨[⟨generation + 1, none⟩]⟩ := by
  have first : (QueueId.pack generation 0).index = 0 := QueueId.index_pack_of_lt _ (by decide)
  have live : get? ⟨[⟨generation, some queue⟩]⟩ (.pack generation 0) = some queue :=
    get?_eq_some_iff.mpr (by simp [first])
  have removed : remove ⟨[⟨generation, some queue⟩]⟩ (.pack generation 0) =
      some (queue, ⟨[⟨generation + 1, none⟩]⟩) := by
    rw [remove, live]
    simp only [first, QueueId.generation_pack, List.set_cons_zero]
  rw [Write.apply, removed]
  rfl

theorem written_rounds (queue : Queue) (count : Nat) (some : 0 < count) :
    empty.written (rounds queue count) = ⟨[⟨UInt32.ofNat count, none⟩]⟩ := by
  induction count with
  | zero => cases some
  | succ count ih =>
    -- whether the slot is made in this round or was used before, its generation is `count`
    have stored : (Write.insert queue).apply (empty.written (rounds queue count)) =
        ⟨[⟨UInt32.ofNat count, Option.some queue⟩]⟩ := by
      rcases Nat.eq_zero_or_pos count with rfl | before
      · rfl
      · rw [ih before]
        rfl
    rw [rounds_succ, written_append, UInt32.ofNat_add]
    show (Write.remove (.pack (UInt32.ofNat count) 0)).apply
      ((Write.insert queue).apply (empty.written (rounds queue count))) = _
    rw [stored, remove_only]
    rfl

/-- After 2^32 rounds the handle that was given out first, and went stale in the first round, is
given out again and reaches the new queue. -/
theorem stale_handle_returns :
    (empty.insert (.fresh .priority true)).1 = .pack 0 0 ∧
      (empty.written (rounds (.fresh .priority true) 1)).get? (.pack 0 0) = none ∧
      (empty.written (rounds (.fresh .priority true) 4294967296)).get? (.pack 0 0) = none ∧
      ((empty.written (rounds (.fresh .priority true) 4294967296)).insert
        (.fresh .priority false)).1 = .pack 0 0 ∧
      ((empty.written (rounds (.fresh .priority true) 4294967296)).insert
        (.fresh .priority false)).2.get? (.pack 0 0) = some (.fresh .priority false) := by
  have once := written_rounds (.fresh .priority true) 1 (by decide)
  have wrapped := written_rounds (.fresh .priority true) 4294967296 (by decide)
  rw [show UInt32.ofNat 4294967296 = 0 from rfl] at wrapped
  rw [once, wrapped]
  decide

end Turnstile.QueueTable
