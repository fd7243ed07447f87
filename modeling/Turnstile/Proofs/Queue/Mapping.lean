import Turnstile.Directory
import Turnstile.Proofs.Queue.Stale

/-!
# The table as a map

Beside a table of queues stands a map (`QueueTable.recorded`) that knows nothing of slots:
an entry for every queue that was stored, under the handle given out for it, until that
handle is used to take it out. A table mirrors its map (`Mirrors`) if all look-ups agree
and there are as many queues as entries. Each change keeps that (`Mirrors.apply`), as long
as the slots have indices that fit a handle.

`table_mirrors_map` says what this comes to for the handles: which are live, what each change does
to them, and that no two of them share a slot.
-/

namespace Turnstile.QueueTable

/-- A change of the queues that are stored, or of one of them. -/
inductive Change
  | write (write : Write)
  | modify (id : QueueId) (f : Queue → Queue)

/-- The table after one change. -/
def Change.apply (table : QueueTable) : Change → QueueTable
  | .write change => change.apply table
  | .modify id f => table.modify id f

/-- The table after changes in a row. -/
def changed (table : QueueTable) (changes : List Change) : QueueTable :=
  changes.foldl Change.apply table

/-- What a change comes to in a map. Of the table it takes only the handle given out. -/
def Change.record (table : QueueTable) (entries : Directory QueueId Queue) :
    Change → Directory QueueId Queue
  | .write (.insert queue) => entries.set (table.insert queue).1 queue
  | .write (.remove id) => entries.erase id
  | .modify id f => entries.modify id f

/-- The map after changes in a row. -/
def recorded (table : QueueTable) (entries : Directory QueueId Queue) :
    List Change → Directory QueueId Queue
  | [] => entries
  | change :: rest => recorded (change.apply table) (change.record table entries) rest

/-- The table holds exactly the entries of the map. -/
structure Mirrors (table : QueueTable) (entries : Directory QueueId Queue) : Prop where
  get?_eq : ∀ id, table.get? id = entries.get? id
  distinct : entries.keys.Nodup
  size_eq : table.size = entries.size

variable {table : QueueTable} {id other : QueueId} {queue : Queue}
  {entries : Directory QueueId Queue}

/-! ## One change -/

theorem length_le_changed (changes : List Change) :
    table.slots.length ≤ (table.changed changes).slots.length := by
  induction changes generalizing table with
  | nil => exact Nat.le_refl _
  | cons change rest ih =>
    refine Nat.le_trans ?_ ih
    cases change with
    | write change => exact length_le_apply change
    | modify id f =>
      show table.slots.length ≤ (table.modify id f).slots.length
      unfold modify
      cases table.get? id <;> simp

/-- As long as the index of its slot fits, a queue that is stored has a handle of its own. -/
theorem get?_insert_of_length_le (fits : (table.insert queue).2.slots.length ≤ 4294967296) :
    table.get? (table.insert queue).1 = none ∧ ∀ other,
      (table.insert queue).2.get? other =
        if other = (table.insert queue).1 then some queue else table.get? other := by
  refine get?_insert_of_size_lt ?_ queue
  -- one slot more is filled afterwards, so one of the 2^32 was free
  have stored := size_insert table queue
  have bound := size_le_length (table.insert queue).2
  omega

/-- Whoever reaches a queue can take it out, and only that one is gone. -/
theorem remove_of_get? (live : table.get? id = some queue) : ∃ rest,
    table.remove id = some (queue, rest) ∧ (Write.remove id).apply table = rest ∧
      ∀ other, rest.get? other = if other = id then none else table.get? other := by
  have removed : table.remove id =
      some (queue, ⟨table.slots.set id.index ⟨id.generation + 1, none⟩⟩) := by
    rw [remove, live]
  refine ⟨_, removed, ?_, get?_remove removed⟩
  rw [Write.apply, removed]
  rfl

theorem apply_remove_of_stale (stale : table.get? id = none) :
    (Write.remove id).apply table = table := by
  rw [Write.apply, remove_eq_none stale]
  rfl

/-- Two handles that reach something do not share a slot. -/
theorem eq_of_index_eq (live : (table.get? id).isSome = true)
    (live' : (table.get? other).isSome = true) (same : other.index = id.index) : other = id := by
  obtain ⟨queue, here⟩ := Option.isSome_iff_exists.mp live
  refine Decidable.byContradiction fun ne => ?_
  rw [get?_eq_none_of_index here same ne] at live'
  cases live'

namespace Mirrors

theorem empty : Mirrors QueueTable.empty Directory.empty where
  get?_eq _ := rfl
  distinct := List.nodup_nil
  size_eq := rfl

variable (mirrors : Mirrors table entries)
include mirrors

theorem mem_keys_iff : id ∈ entries.keys ↔ (table.get? id).isSome = true := by
  rw [Directory.mem_keys_iff, mirrors.get?_eq]

theorem insert (fits : (table.insert queue).2.slots.length ≤ 4294967296) :
    Mirrors (table.insert queue).2 (entries.set (table.insert queue).1 queue) := by
  obtain ⟨fresh, stored⟩ := get?_insert_of_length_le fits
  constructor
  · intro other
    rw [stored, Directory.get?_set, mirrors.get?_eq]
    by_cases same : other = (table.insert queue).1
    · rw [if_pos same, if_pos same.symm]
    · rw [if_neg same, if_neg (Ne.symm same)]
  · exact Directory.nodup_keys_set mirrors.distinct _ _
  · rw [mirrors.get?_eq] at fresh
    rw [size_insert, Directory.size_set_of_fresh fresh, mirrors.size_eq]

theorem remove (id : QueueId) : Mirrors ((Write.remove id).apply table) (entries.erase id) := by
  cases live : table.get? id with
  | some queue =>
    obtain ⟨rest, removed, same, others⟩ := remove_of_get? live
    rw [same]
    constructor
    · intro other
      rw [others, Directory.get?_erase, mirrors.get?_eq]
      by_cases same : other = id
      · rw [if_pos same, if_pos same.symm]
      · rw [if_neg same, if_neg (Ne.symm same)]
    · exact Directory.nodup_keys_erase mirrors.distinct id
    · have known : id ∈ entries.keys := mirrors.mem_keys_iff.mpr (by rw [live]; rfl)
      have fewer := Directory.size_erase mirrors.distinct known
      have := size_remove removed
      have := mirrors.size_eq
      omega
  | none =>
    have unknown : entries.get? id = none := by rw [← mirrors.get?_eq, live]
    rw [apply_remove_of_stale live, Directory.erase_self unknown]
    exact mirrors

theorem modify (id : QueueId) (f : Queue → Queue) :
    Mirrors (table.modify id f) (entries.modify id f) := by
  constructor
  · intro other
    rw [get?_modify, Directory.get?_modify, mirrors.get?_eq, mirrors.get?_eq]
    by_cases same : other = id
    · rw [if_pos same, if_pos same.symm, same]
    · rw [if_neg same, if_neg (Ne.symm same)]
  · rw [Directory.keys_modify]
    exact mirrors.distinct
  · rw [size_modify, Directory.size_eq_length_keys, Directory.keys_modify,
      ← Directory.size_eq_length_keys, mirrors.size_eq]

/-- A change of the table is the same change of its map. -/
theorem apply (change : Change) (fits : (change.apply table).slots.length ≤ 4294967296) :
    Mirrors (change.apply table) (change.record table entries) := by
  cases change with
  | write change =>
    cases change with
    | insert queue => exact mirrors.insert fits
    | remove id => exact mirrors.remove id
  | modify id f => exact mirrors.modify id f

theorem changed {changes : List Change}
    (fits : (table.changed changes).slots.length ≤ 4294967296) :
    Mirrors (table.changed changes) (table.recorded entries changes) := by
  induction changes generalizing table entries with
  | nil => exact mirrors
  | cons change rest ih =>
    exact ih (mirrors.apply change (Nat.le_trans (length_le_changed rest) fits)) fits

end Mirrors

/-! ## The table as a whole -/

/-- A table that has been made by storing, taking out and changing queues, with slots whose indices
fit a handle (for one slot more see `QueueTable.insert_beyond`), is the map of these. A queue
that is stored gets a handle that was not live and is all that is new; taking out gives the queue of
a live handle, which alone is gone, and does nothing for any other handle, forged ones included; a
change reaches the handle's own queue alone. Two live handles never share a slot, and handles and
pairs of generation and index are the same thing. -/
theorem table_mirrors_map {changes : List Change}
    (small : (empty.changed changes).slots.length ≤ 4294967296) :
    let table := empty.changed changes
    let entries := empty.recorded .empty changes
    Mirrors table entries ∧
    (∀ id, id ∈ entries.keys ↔ (table.get? id).isSome = true) ∧
    table.size = entries.keys.length ∧
    (∀ queue, (table.insert queue).2.slots.length ≤ 4294967296 →
      (table.insert queue).1 ∉ entries.keys ∧ ∀ other, (table.insert queue).2.get? other =
        if other = (table.insert queue).1 then some queue else entries.get? other) ∧
    (∀ id queue, entries.get? id = some queue → ∃ rest, table.remove id = some (queue, rest) ∧
      ∀ other, rest.get? other = if other = id then none else entries.get? other) ∧
    (∀ id, id ∉ entries.keys → table.get? id = none ∧ table.remove id = none ∧
      (Write.remove id).apply table = table ∧ ∀ f, table.modify id f = table) ∧
    (∀ id f other, (table.modify id f).get? other =
      if other = id then (entries.get? id).map f else entries.get? other) ∧
    (∀ id ∈ entries.keys, ∀ other ∈ entries.keys, other.index = id.index → other = id) ∧
    ∀ generation index, index < 4294967296 →
      (QueueId.pack generation index).generation = generation ∧
        (QueueId.pack generation index).index = index := by
  intro table entries
  have mirrors : Mirrors table entries := Mirrors.empty.changed small
  refine ⟨mirrors, fun id => mirrors.mem_keys_iff, ?_, fun queue fits => ?_,
    fun id queue held => ?_,
    fun id unknown => ?_, fun id f other => ?_, fun id known other known' same => ?_,
    fun generation index bound => ⟨QueueId.generation_pack generation index,
      QueueId.index_pack_of_lt generation bound⟩⟩
  · rw [mirrors.size_eq, Directory.size_eq_length_keys]
  · obtain ⟨fresh, stored⟩ := get?_insert_of_length_le fits
    rw [mirrors.get?_eq] at fresh
    refine ⟨Directory.notMem_keys_iff.mpr fresh, fun other => ?_⟩
    rw [stored, mirrors.get?_eq]
  · rw [← mirrors.get?_eq] at held
    obtain ⟨rest, removed, -, others⟩ := remove_of_get? held
    refine ⟨rest, removed, fun other => ?_⟩
    rw [others, mirrors.get?_eq]
  · have stale : table.get? id = none := by
      rw [mirrors.get?_eq, Directory.notMem_keys_iff.mp unknown]
    exact ⟨stale, remove_eq_none stale, apply_remove_of_stale stale, modify_eq_self stale⟩
  · rw [get?_modify, mirrors.get?_eq, mirrors.get?_eq]
  · exact eq_of_index_eq (mirrors.mem_keys_iff.mp known) (mirrors.mem_keys_iff.mp known') same

/-- Two queues are stored, one is taken out and its slot filled again: the old handle is not in the
map, and the new one is. -/
theorem table_mirrors_map_refilled :
    let queue := Queue.fresh .priority true
    let changes : List Change := [.write (.insert queue), .write (.insert queue),
      .write (.remove (.pack 0 0)), .modify (.pack 0 0) (fun _ => default), .write (.insert queue)]
    (empty.changed changes).slots.length ≤ 4294967296 ∧
      (empty.recorded .empty changes).keys = [.pack 0 1, .pack 1 0] ∧
      (empty.changed changes).remove (.pack 0 0) = none ∧
      (empty.changed changes).size = 2 := by
  intro queue changes
  have small : (empty.changed changes).slots.length ≤ 4294967296 := by decide
  obtain ⟨-, -, size, -, -, stale, -⟩ := table_mirrors_map small
  have keys : (empty.recorded .empty changes).keys = [.pack 0 1, .pack 1 0] := by decide
  refine ⟨small, keys, (stale _ ?_).2.1, ?_⟩
  · rw [keys]
    decide
  · rw [size, keys]
    rfl

end Turnstile.QueueTable
