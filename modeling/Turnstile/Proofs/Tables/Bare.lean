import Turnstile.Tables.Access

/-!
# Tables without the weights kept

Effective weights are kept in records only to save work. `Tables.bare` takes them all out, and
two tables with the same `bare` say the same about queues, owners, waiters and base weights.

* **Writes** of a kept weight do not show in `bare` (`bare_remember`, `bare_amend_memo`).
* **Reads** of anything else are the same in two such tables: `size_eq_of_bare` and
  `knows_eq_of_bare` for the records there are, and the lemmas on ledgers for all the rest.
-/

namespace Turnstile

namespace Directory

variable {κ α β : Type}

/-- Change every value. -/
def map (f : α → β) (directory : Directory κ α) : Directory κ β :=
  ⟨directory.entries.map fun entry => (entry.1, f entry.2)⟩

@[simp] theorem size_map (f : α → β) (directory : Directory κ α) :
    (directory.map f).size = directory.size := by
  simp [map, size]

variable [DecidableEq κ]

theorem find?_map (f : α → β) (key : κ) (entries : List (κ × α)) :
    find? key (entries.map fun entry => (entry.1, f entry.2)) = (find? key entries).map f := by
  induction entries with
  | nil => rfl
  | cons entry rest ih =>
    by_cases h : entry.1 = key <;> simp [find?, h, ih]

theorem get?_map (f : α → β) (directory : Directory κ α) (key : κ) :
    (directory.map f).get? key = (directory.get? key).map f :=
  find?_map f key directory.entries

theorem map_put (f : α → β) (key : κ) (value : α) (entries : List (κ × α)) :
    (put key value entries).map (fun entry => (entry.1, f entry.2)) =
      put key (f value) (entries.map fun entry => (entry.1, f entry.2)) := by
  induction entries with
  | nil => rfl
  | cons entry rest ih =>
    by_cases h : entry.1 = key <;> simp [put, h, ih]

theorem map_set (f : α → β) (directory : Directory κ α) (key : κ) (value : α) :
    (directory.set key value).map f = (directory.map f).set key (f value) := by
  simp [set, map, map_put]

end Directory

/-- The record without the weight kept. -/
def ThreadState.bare (state : ThreadState) : ThreadState := { state with memo := none }

theorem ThreadState.bare_eq_iff {a b : ThreadState} :
    a.bare = b.bare ↔ a.base = b.base ∧ a.owned = b.owned ∧ a.enqueuedAt = b.enqueuedAt ∧
      a.waitingOn = b.waitingOn := by
  simp [ThreadState.bare]

namespace Tables

/-- The tables without the weights kept. -/
def bare (tables : Tables) : Tables :=
  { tables with threads := tables.threads.map ThreadState.bare }

/-! ## Reads -/

@[simp] theorem state_bare (tables : Tables) (thread : ThreadId) :
    tables.bare.state thread = (tables.state thread).bare := by
  unfold state bare
  rw [Directory.get?_map]
  cases tables.threads.get? thread <;> rfl

theorem knows_bare (tables : Tables) (thread : ThreadId) :
    tables.bare.knows thread = tables.knows thread := by
  simp [knows, bare, Directory.contains, Directory.get?_map]

section Equal

variable {a b : Tables} (h : a.bare = b.bare)
include h

theorem size_eq_of_bare : a.threads.size = b.threads.size := by
  have := congrArg (fun tables : Tables => tables.threads.size) h
  simpa [bare] using this

theorem knows_eq_of_bare (thread : ThreadId) : a.knows thread = b.knows thread := by
  rw [← knows_bare a, ← knows_bare b, h]

end Equal

/-! ## Writes -/

theorem bare_record (tables : Tables) (thread : ThreadId) (f : ThreadState → ThreadState) :
    (tables.record thread f).bare =
      { tables.bare with
        threads := tables.bare.threads.set thread (f (tables.state thread)).bare } := by
  simp [record, bare, Directory.map_set]

/-- A write that leaves the bare record as it is does not show. -/
theorem bare_record_of_knows {tables : Tables} {thread : ThreadId}
    {f : ThreadState → ThreadState} (known : tables.knows thread = true)
    (h : (f (tables.state thread)).bare = (tables.state thread).bare) :
    (tables.record thread f).bare = tables.bare := by
  obtain ⟨state, hs⟩ := Option.isSome_iff_exists.mp known
  rw [bare_record, h, Directory.set_self]
  simp [bare, Directory.get?_map, hs, state_of_get? hs]

theorem bare_amend_memo (tables : Tables) (thread : ThreadId) (memo : Option Int) :
    (tables.amend thread fun state => { state with memo }).bare = tables.bare := by
  unfold amend Directory.modify
  cases hs : tables.threads.get? thread with
  | none => rfl
  | some state =>
    rw [← state_of_get? hs]
    exact bare_record_of_knows (f := fun state => { state with memo })
      (by simp [knows, Directory.contains, hs]) rfl

theorem enrol_of_knows {tables : Tables} {thread : ThreadId}
    (known : tables.knows thread = true) : tables.enrol thread = tables := by
  simp [enrol, known]

theorem knows_enrol (tables : Tables) (thread : ThreadId) :
    (tables.enrol thread).knows thread = true := by
  unfold enrol
  split
  · assumption
  · simp [knows, record, Directory.contains, Directory.get?_set]

theorem bare_remember {tables : Tables} {thread : ThreadId} (known : tables.knows thread = true)
    (weight : Int) : (tables.remember thread weight).bare = tables.bare :=
  bare_record_of_knows known rfl

end Tables

end Turnstile
