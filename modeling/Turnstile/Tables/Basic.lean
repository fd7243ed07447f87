import Turnstile.Directory
import Turnstile.Queue.Table
import Turnstile.Violation
import Turnstile.Random

/-!
# The scheduling tables

All that a scheduler remembers is one value, `Tables`: a record for every thread that ever dealt
with it, the table of queues, a counter of arrivals, and the generator for lottery draws.

Ownership and waiting are each written down twice, once in the queue and once in the thread's
record:

* a queue names its **owner**, and the owner's record lists the queue among those it **owns**;
* a queue lists its **waiters**, and each waiter's record says which queue it **waits on**.

A thread's record is made when the thread is first dealt with (`Tables.state` is what such a
record holds), and dropped when the thread leaves. An operation that cannot go on fails with a
`Violation`; there are then no tables to go on with.
-/

namespace Turnstile

/-- What the scheduler remembers of one thread. -/
structure ThreadState where
  /-- The weight that the thread was given. -/
  base : Int
  /-- The weight with all that is lent, if it has been worked out since it last changed. -/
  memo : Option Int
  /-- The queues that the thread owns. -/
  owned : List QueueId
  /-- The stamp of the thread's latest arrival in a queue. -/
  enqueuedAt : Nat
  /-- The queue that the thread waits on. -/
  waitingOn : Option QueueId
deriving DecidableEq, Repr, Inhabited

namespace ThreadState

/-- The record of a thread that owns nothing and waits for nothing. -/
def fresh (base : Int) : ThreadState :=
  { base, memo := none, owned := [], enqueuedAt := 0, waitingOn := none }

/-- Add a queue to those owned, once. -/
def attach (id : QueueId) (state : ThreadState) : ThreadState :=
  if id ∈ state.owned then state else { state with owned := state.owned ++ [id] }

/-- Take a queue from those owned. -/
def detach (id : QueueId) (state : ThreadState) : ThreadState :=
  { state with owned := state.owned.filter (· ≠ id) }

theorem mem_owned_attach {id other : QueueId} {state : ThreadState} :
    other ∈ (state.attach id).owned ↔ other ∈ state.owned ∨ other = id := by
  unfold attach
  split
  · rename_i h
    exact ⟨.inl, fun ho => ho.elim (fun hm => hm) (fun he => he ▸ h)⟩
  · simp

theorem owned_attach {id : QueueId} {state : ThreadState} (h : id ∉ state.owned) :
    (state.attach id).owned = state.owned ++ [id] := by
  rw [attach, if_neg h]

theorem mem_owned_detach {id other : QueueId} {state : ThreadState} :
    other ∈ (state.detach id).owned ↔ other ∈ state.owned ∧ other ≠ id := by
  simp [detach]

theorem nodup_owned_attach {id : QueueId} {state : ThreadState} (h : state.owned.Nodup) :
    (state.attach id).owned.Nodup := by
  unfold attach
  split
  · exact h
  · rename_i absent
    exact List.nodup_append.mpr ⟨h, by simp, by rintro a ha b hb rfl; simp_all⟩

theorem nodup_owned_detach {id : QueueId} {state : ThreadState} (h : state.owned.Nodup) :
    (state.detach id).owned.Nodup :=
  h.filter _

theorem detach_of_notMem {id : QueueId} {state : ThreadState} (h : id ∉ state.owned) :
    state.detach id = state := by
  have : state.owned.filter (· ≠ id) = state.owned :=
    List.filter_eq_self.mpr fun other ho => by simpa using fun he : other = id => h (he ▸ ho)
  rw [detach, this]

@[simp] theorem waitingOn_attach (id : QueueId) (state : ThreadState) :
    (state.attach id).waitingOn = state.waitingOn := by
  unfold attach
  split <;> rfl

@[simp] theorem base_attach (id : QueueId) (state : ThreadState) :
    (state.attach id).base = state.base := by
  unfold attach
  split <;> rfl

@[simp] theorem enqueuedAt_attach (id : QueueId) (state : ThreadState) :
    (state.attach id).enqueuedAt = state.enqueuedAt := by
  unfold attach
  split <;> rfl

end ThreadState

/-- Everything a scheduler remembers. -/
structure Tables where
  policy : Policy
  threads : Directory ThreadId ThreadState
  queues : QueueTable
  /-- The stamp of the latest arrival in any queue. -/
  stamp : Nat
  generator : XorShift
deriving DecidableEq, Repr

namespace Tables

/-- The tables of a scheduler that has dealt with nobody. -/
def fresh (policy : Policy) (seed : UInt64) : Tables :=
  { policy, threads := .empty, queues := .empty, stamp := 0, generator := .ofSeed seed }

/-- The last stamp there is. -/
def greatestStamp : Nat := 18446744073709551615

/-! ## Threads -/

/-- Whether the thread has a record. -/
def knows (tables : Tables) (thread : ThreadId) : Bool := tables.threads.contains thread

/-- The thread's record, or the one it would be given. -/
def state (tables : Tables) (thread : ThreadId) : ThreadState :=
  (tables.threads.get? thread).getD (.fresh tables.policy.defaultWeight)

/-- Change the thread's record, making it first where there is none. -/
def record (tables : Tables) (thread : ThreadId) (f : ThreadState → ThreadState) : Tables :=
  { tables with threads := tables.threads.set thread (f (tables.state thread)) }

/-- See to it that the thread has a record. -/
def enrol (tables : Tables) (thread : ThreadId) : Tables :=
  if tables.knows thread then tables else tables.record thread id

/-- Change the thread's record where there is one. -/
def amend (tables : Tables) (thread : ThreadId) (f : ThreadState → ThreadState) : Tables :=
  { tables with threads := tables.threads.modify thread f }

/-! ## Queues -/

/-- The queue behind a handle, which must not be stale. -/
def queue (tables : Tables) (id : QueueId) : Except Violation Queue :=
  match tables.queues.get? id with
  | some queue => .ok queue
  | none => .error (.staleQueue id)

/-- Change the queue behind a handle. -/
def alter (tables : Tables) (id : QueueId) (f : Queue → Queue) : Tables :=
  { tables with queues := tables.queues.modify id f }

/-! ## What a write does to records and queues -/

theorem state_of_get? {tables : Tables} {thread : ThreadId} {state : ThreadState}
    (h : tables.threads.get? thread = some state) : tables.state thread = state := by
  simp [Tables.state, h]

theorem state_of_get?_none {tables : Tables} {thread : ThreadId}
    (h : tables.threads.get? thread = none) :
    tables.state thread = .fresh tables.policy.defaultWeight := by
  simp [Tables.state, h]

/-- A record that differs from a new one is the record of a known thread. -/
theorem get?_of_state_ne {tables : Tables} {thread : ThreadId}
    (h : tables.state thread ≠ .fresh tables.policy.defaultWeight) :
    tables.threads.get? thread = some (tables.state thread) := by
  cases hg : tables.threads.get? thread with
  | none => exact absurd (state_of_get?_none hg) h
  | some state => rw [state_of_get? hg]

theorem state_record (tables : Tables) (thread other : ThreadId)
    (f : ThreadState → ThreadState) :
    (tables.record thread f).state other =
      if thread = other then f (tables.state other) else tables.state other := by
  by_cases h : thread = other
  · subst h
    simp [state, record, Directory.get?_set]
  · simp [state, record, Directory.get?_set, h]

@[simp] theorem state_enrol (tables : Tables) (thread other : ThreadId) :
    (tables.enrol thread).state other = tables.state other := by
  unfold enrol
  split
  · rfl
  · rw [state_record]
    split <;> rfl

/-- Where a change leaves a new record as it is, it makes no difference whether the thread has
a record already. -/
theorem state_amend {tables : Tables} {f : ThreadState → ThreadState}
    (h : f (.fresh tables.policy.defaultWeight) = .fresh tables.policy.defaultWeight)
    (thread other : ThreadId) :
    (tables.amend thread f).state other =
      if thread = other then f (tables.state other) else tables.state other := by
  by_cases ht : thread = other
  · subst ht
    cases hg : tables.threads.get? thread <;>
      simp [state, amend, Directory.get?_modify, hg, h]
  · simp [state, amend, Directory.get?_modify, ht]

theorem queue_eq_ok_iff {tables : Tables} {id : QueueId} {queue : Queue} :
    tables.queue id = .ok queue ↔ tables.queues.get? id = some queue := by
  unfold Tables.queue
  cases tables.queues.get? id <;> simp

end Tables

end Turnstile
