import Turnstile.Thread

/-!
# Sleepers

Threads that sleep until a tick are kept sorted by that tick, those of one tick in order of
arrival. The sleeper to wake next is then the first of the list.

* **`SleepQueue.insert`** puts a sleeper behind all that wake no later.
* **`SleepQueue.popDue`** takes the first sleeper if its tick has come, and **`drainDue`** all
  whose tick has come.
* Each sleeper carries the number of its arrival, which says what "first among equals" means
  without reference to the list.
-/

namespace Turnstile

/-- The last tick that a clock can show. -/
def greatestTick : Nat := 18446744073709551615

/-- A thread asleep until a tick. -/
structure Sleeper where
  wakeAt : Nat
  /-- The number of this sleeper among all that were ever inserted, from 1. -/
  arrival : Nat
  thread : ThreadId
deriving DecidableEq, Repr, Inhabited

/-- Sleeping threads, the next to wake in front. -/
structure SleepQueue where
  sleepers : List Sleeper
  /-- How many sleepers were ever inserted. -/
  arrivals : Nat
deriving DecidableEq, Repr, Inhabited

namespace SleepQueue

/-- The queue in which nobody ever slept. -/
def empty : SleepQueue := ⟨[], 0⟩

/-- Put a sleeper behind all that wake no later. -/
def place (sleeper : Sleeper) : List Sleeper → List Sleeper
  | [] => [sleeper]
  | other :: rest =>
    if other.wakeAt ≤ sleeper.wakeAt then other :: place sleeper rest
    else sleeper :: other :: rest

/-- Let a thread sleep until the clock shows `wakeAt`. -/
def insert (queue : SleepQueue) (wakeAt : Nat) (thread : ThreadId) : SleepQueue :=
  ⟨place ⟨wakeAt, queue.arrivals + 1, thread⟩ queue.sleepers, queue.arrivals + 1⟩

/-- Take the next sleeper if it is due when the clock shows `now`. -/
def popDue (queue : SleepQueue) (now : Nat) : Option ThreadId × SleepQueue :=
  match queue.sleepers with
  | [] => (none, queue)
  | first :: rest =>
    if first.wakeAt ≤ now then (some first.thread, { queue with sleepers := rest })
    else (none, queue)

/-- Take every sleeper that is due when the clock shows `now`, in waking order. -/
def drainDue (queue : SleepQueue) (now : Nat) : List ThreadId × SleepQueue :=
  ((queue.sleepers.takeWhile (·.wakeAt ≤ now)).map (·.thread),
    { queue with sleepers := queue.sleepers.dropWhile (·.wakeAt ≤ now) })

/-- The tick of the next sleeper. -/
def nextDeadline (queue : SleepQueue) : Option Nat := queue.sleepers.head?.map (·.wakeAt)

/-- The number of sleepers. -/
def size (queue : SleepQueue) : Nat := queue.sleepers.length

/-- Whether nobody sleeps. -/
def isEmpty (queue : SleepQueue) : Bool := queue.sleepers.isEmpty

/-- Whoever is put among sleepers, they are the same otherwise. -/
theorem place_perm (sleeper : Sleeper) (sleepers : List Sleeper) :
    (place sleeper sleepers).Perm (sleeper :: sleepers) := by
  induction sleepers with
  | nil => exact .refl _
  | cons other rest ih =>
    unfold place
    split
    · exact (ih.cons other).trans (.swap sleeper other rest)
    · exact .refl _

/-! ## Draining is taking one after another -/

theorem drainDue_of_popDue_none {queue : SleepQueue} {now : Nat}
    (h : (queue.popDue now).1 = none) : queue.drainDue now = ([], queue) := by
  obtain ⟨sleepers, arrivals⟩ := queue
  cases sleepers with
  | nil => rfl
  | cons first rest =>
    by_cases hd : first.wakeAt ≤ now
    · simp [popDue, hd] at h
    · simp [drainDue, hd]

theorem drainDue_of_popDue_some {queue : SleepQueue} {now : Nat} {thread : ThreadId}
    (h : (queue.popDue now).1 = some thread) :
    queue.drainDue now =
      (thread :: ((queue.popDue now).2.drainDue now).1, ((queue.popDue now).2.drainDue now).2) := by
  obtain ⟨sleepers, arrivals⟩ := queue
  cases sleepers with
  | nil => simp [popDue] at h
  | cons first rest =>
    by_cases hd : first.wakeAt ≤ now
    · simp only [popDue, hd, if_true, Option.some.injEq] at h ⊢
      simp [drainDue, hd, h]
    · simp [popDue, hd] at h

theorem size_of_popDue_some {queue : SleepQueue} {now : Nat} {thread : ThreadId}
    (h : (queue.popDue now).1 = some thread) : (queue.popDue now).2.size + 1 = queue.size := by
  obtain ⟨sleepers, arrivals⟩ := queue
  cases sleepers with
  | nil => simp [popDue] at h
  | cons first rest =>
    by_cases hd : first.wakeAt ≤ now
    · simp [popDue, hd, size]
    · simp [popDue, hd] at h

end SleepQueue

end Turnstile
