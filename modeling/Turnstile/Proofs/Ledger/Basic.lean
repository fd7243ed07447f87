import Mathlib.Data.Set.Basic
import Turnstile.Proofs.Tables.Bare

/-!
# Ledgers

A ledger is what the tables say of every handle and of every thread, as two functions. It forgets
how slots and entries are laid out and which threads have a record that holds nothing yet.

* **`Tables.ledger`** reads the ledger off the tables.
* **Writes** to the tables are writes to their ledger: `ledger_alter`, `ledger_record`,
  `ledger_amend` and the lemmas beside them.
* **`Ledger.clear`** takes the weights kept for a set of threads out, and `Ledger.bare` those of
  all threads. Whatever does not look at kept weights is the same in a ledger and its `bare`.
-/

namespace Turnstile

/-- What tables say of every handle and every thread. -/
@[ext]
structure Ledger where
  policy : Policy
  /-- The stamp of the latest arrival. -/
  stamp : Nat
  /-- The queue behind a handle. -/
  queue? : QueueId → Option Queue
  /-- The record of a thread, or the one it would be given. -/
  record : ThreadId → ThreadState

namespace Ledger

/-- Change the queue behind a handle. -/
def alter (ledger : Ledger) (id : QueueId) (f : Queue → Queue) : Ledger :=
  { ledger with
    queue? := fun other =>
      if other = id then (ledger.queue? id).map f else ledger.queue? other }

/-- Change a thread's record. -/
def write (ledger : Ledger) (thread : ThreadId) (f : ThreadState → ThreadState) : Ledger :=
  { ledger with
    record := fun other =>
      if thread = other then f (ledger.record other) else ledger.record other }

/-- Take out all weights kept. -/
def bare (ledger : Ledger) : Ledger :=
  { ledger with record := fun thread => (ledger.record thread).bare }

open Classical in
/-- Take out the weights kept for some threads. -/
noncomputable def clear (ledger : Ledger) (threads : Set ThreadId) : Ledger :=
  { ledger with
    record := fun thread =>
      if thread ∈ threads then (ledger.record thread).bare else ledger.record thread }

variable (ledger : Ledger) (threads : Set ThreadId)

@[simp] theorem clear_queue? : (ledger.clear threads).queue? = ledger.queue? := rfl

@[simp] theorem bare_clear : (ledger.clear threads).bare = ledger.bare := by
  refine Ledger.ext rfl rfl rfl (funext fun thread => ?_)
  by_cases h : thread ∈ threads <;> simp [clear, bare, h, ThreadState.bare]

/-! ## Reads that weights kept have no part in -/

section Bare

variable {ledger after : Ledger} (h : after.bare = ledger.bare)
include h

theorem policy_of_bare : after.policy = ledger.policy :=
  show after.bare.policy = ledger.bare.policy by rw [h]

theorem stamp_of_bare : after.stamp = ledger.stamp :=
  show after.bare.stamp = ledger.bare.stamp by rw [h]

theorem queue?_of_bare : after.queue? = ledger.queue? :=
  show after.bare.queue? = ledger.bare.queue? by rw [h]

theorem record_of_bare (thread : ThreadId) :
    (after.record thread).bare = (ledger.record thread).bare :=
  show after.bare.record thread = ledger.bare.record thread by rw [h]

theorem base_of_bare (thread : ThreadId) :
    (after.record thread).base = (ledger.record thread).base :=
  (ThreadState.bare_eq_iff.mp (record_of_bare h thread)).1

theorem owned_of_bare (thread : ThreadId) :
    (after.record thread).owned = (ledger.record thread).owned :=
  (ThreadState.bare_eq_iff.mp (record_of_bare h thread)).2.1

theorem enqueuedAt_of_bare (thread : ThreadId) :
    (after.record thread).enqueuedAt = (ledger.record thread).enqueuedAt :=
  (ThreadState.bare_eq_iff.mp (record_of_bare h thread)).2.2.1

theorem waitingOn_of_bare (thread : ThreadId) :
    (after.record thread).waitingOn = (ledger.record thread).waitingOn :=
  (ThreadState.bare_eq_iff.mp (record_of_bare h thread)).2.2.2

end Bare

/-! ## What clearing does -/

variable {ledger threads}

theorem record_clear_of_mem {thread : ThreadId} (h : thread ∈ threads) :
    (ledger.clear threads).record thread = (ledger.record thread).bare :=
  if_pos h

theorem record_clear_of_notMem {thread : ThreadId} (h : thread ∉ threads) :
    (ledger.clear threads).record thread = ledger.record thread :=
  if_neg h

theorem memo_clear_of_mem {thread : ThreadId} (h : thread ∈ threads) :
    ((ledger.clear threads).record thread).memo = none := by
  rw [record_clear_of_mem h, ThreadState.bare]

@[simp] theorem clear_empty (ledger : Ledger) : ledger.clear ∅ = ledger := by
  refine Ledger.ext rfl rfl rfl (funext fun thread => ?_)
  have hm : thread ∉ (∅ : Set ThreadId) := fun h => h
  exact record_clear_of_notMem hm

theorem clear_clear (more : Set ThreadId) :
    (ledger.clear threads).clear more = ledger.clear (threads ∪ more) := by
  refine Ledger.ext rfl rfl rfl (funext fun thread => ?_)
  by_cases h : thread ∈ threads <;> by_cases hm : thread ∈ more <;>
    simp [clear, h, hm, ThreadState.bare]

/-- Weights are kept for the same threads before and after a write that leaves them alone. -/
theorem write_clear {thread : ThreadId} {f : ThreadState → ThreadState}
    (h : ∀ state, (f state).bare = f state.bare) :
    (ledger.clear threads).write thread f = (ledger.write thread f).clear threads := by
  refine Ledger.ext rfl rfl rfl (funext fun other => ?_)
  by_cases ho : thread = other <;> by_cases hm : other ∈ threads <;>
    simp [clear, write, ho, hm, h]

end Ledger

namespace Tables

/-- What the tables say of every handle and every thread. -/
def ledger (tables : Tables) : Ledger :=
  { policy := tables.policy
    stamp := tables.stamp
    queue? := tables.queues.get?
    record := tables.state }

/-! ## Writes to the tables are writes to the ledger -/

theorem ledger_alter (tables : Tables) (id : QueueId) (f : Queue → Queue) :
    (tables.alter id f).ledger = tables.ledger.alter id f :=
  Ledger.ext rfl rfl (funext fun other => QueueTable.get?_modify tables.queues id other f) rfl

theorem ledger_record (tables : Tables) (thread : ThreadId) (f : ThreadState → ThreadState) :
    (tables.record thread f).ledger = tables.ledger.write thread f :=
  Ledger.ext rfl rfl rfl (funext fun other => state_record tables thread other f)

@[simp] theorem ledger_enrol (tables : Tables) (thread : ThreadId) :
    (tables.enrol thread).ledger = tables.ledger := by
  refine Ledger.ext ?_ ?_ ?_ (funext fun other => state_enrol tables thread other) <;>
    unfold enrol <;> split <;> rfl

theorem ledger_amend {tables : Tables} {f : ThreadState → ThreadState}
    (h : f (.fresh tables.policy.defaultWeight) = .fresh tables.policy.defaultWeight)
    (thread : ThreadId) : (tables.amend thread f).ledger = tables.ledger.write thread f :=
  Ledger.ext rfl rfl rfl (funext fun other => state_amend h thread other)

theorem ledger_detach (tables : Tables) (thread : ThreadId) (id : QueueId) :
    (tables.amend thread (·.detach id)).ledger = tables.ledger.write thread (·.detach id) :=
  ledger_amend (by simp [ThreadState.detach, ThreadState.fresh]) thread

theorem ledger_bare (tables : Tables) : tables.bare.ledger = tables.ledger.bare :=
  Ledger.ext rfl rfl rfl (funext fun thread => state_bare tables thread)

theorem ledger_bare_eq_of_bare {a b : Tables} (h : a.bare = b.bare) :
    a.ledger.bare = b.ledger.bare := by
  rw [← ledger_bare, ← ledger_bare, h]

end Tables

end Turnstile
