import Turnstile.Thread
import Turnstile.Queue.Handle

/-!
# Violations of contract

Some mistakes of a caller leave nothing to go on with: a stale handle, a lock released by a
thread that does not hold it, a wait with interrupts on. Such a call fails with a `Violation`,
one constructor per cause, and whatever was running ends there. Requests that are merely refused
(an unknown policy name, a weight out of range) are not violations; they have error types of
their own.

* **`Violation.message`** holds the wording of every cause.
-/

namespace Turnstile

/-- Why a call could not go on. -/
inductive Violation
  /-- The handle reaches no queue. -/
  | staleQueue (id : QueueId)
  /-- A queue is closed while threads wait on it. -/
  | closesWaitedOn (id : QueueId) (waiters : Nat)
  /-- The owner of a queue is put among its waiters. -/
  | waitsOnOwned (thread : ThreadId) (id : QueueId)
  /-- A waiting thread is put on a second queue. -/
  | waitsTwice (thread : ThreadId) (id other : QueueId)
  /-- A thread becomes owner of the queue it waits on. -/
  | acquiresWaitedOn (thread : ThreadId) (id : QueueId)
  /-- The counter of arrivals has reached its last value. -/
  | arrivalsExhausted
  /-- Lent weights come back to the thread they are asked for. -/
  | donationCycle (thread : ThreadId)
  /-- The threads that a thread lends to come back to it. -/
  | invalidationCycle (thread : ThreadId)
  /-- A ticket is drawn out of none. -/
  | emptyPool
  /-- The generator gave no fair value within the tries allowed to a draw. -/
  | unfairDraw
  /-- An operation that has to be atomic is called with interrupts on. -/
  | interruptsEnabled (operation : String)
  /-- A thread takes a lock that it holds. -/
  | reacquiresLock (thread : ThreadId)
  /-- A thread gives up a lock that it does not hold. -/
  | releasesUnheldLock (thread : ThreadId)
  /-- A thread that slept for a lock was woken while another thread, or none, owns it. -/
  | wokenWithoutLock (thread : ThreadId) (holder : Option ThreadId)
  /-- A condition is used by a thread that does not hold its lock. -/
  | conditionUnheld (operation : String)
  /-- A thread joins itself. -/
  | joinsItself (thread : ThreadId)
  /-- A thread is joined a second time. -/
  | joinedTwice (target : ThreadId)
  /-- A thread leaves through the join point of another. -/
  | exitsThroughOther (thread target : ThreadId)
  /-- The idle context goes to sleep. -/
  | idleSleeps
  /-- A thread is readied that is not asleep. -/
  | readiedUnblocked (thread : ThreadId)
  /-- A kernel thread dispatches others, which is the idle context's part. -/
  | dispatchesFromThread (thread : ThreadId)
  /-- A call names a lock, condition or join point that was never made. -/
  | unknownObject (kind : String) (index : Nat)
  /-- A script performs an operation that its machine does not have. -/
  | unknownOperation (name : String)
  /-- A program gave up by itself. -/
  | raised (text : String)
deriving DecidableEq, Repr, Inhabited

namespace Violation

/-- How the sleeper's check writes the owner that it found or expected. -/
def ownerText : Option ThreadId → String
  | some thread => "Some(ThreadId(" ++ toString thread.number ++ "))"
  | none => "None"

/-- The wording of a violation. -/
def message : Violation → String
  | staleQueue id => "stale or unknown queue handle " ++ id.text
  | closesWaitedOn id waiters =>
    "closing " ++ id.text ++ " while " ++ toString waiters ++ " thread(s) still wait on it"
  | waitsOnOwned thread id =>
    thread.text ++ " waits on " ++ id.text ++ ", which it already owns"
  | waitsTwice thread id other =>
    thread.text ++ " waits on " ++ id.text ++ " while already waiting on " ++ other.text
  | acquiresWaitedOn thread id =>
    thread.text ++ " acquires " ++ id.text ++ " while waiting on it"
  | arrivalsExhausted => "attempt to add with overflow"
  | donationCycle thread =>
    "ownership cycle: donation through " ++ thread.text ++ " does not terminate"
  | invalidationCycle thread =>
    "ownership cycle: invalidation through " ++ thread.text ++ " does not terminate"
  | emptyPool => "lottery draw over an empty ticket pool"
  | unfairDraw => "lottery draw without a fair value"
  | interruptsEnabled operation => operation ++ " requires interrupts disabled"
  | reacquiresLock thread => thread.text ++ " acquires a lock it already holds"
  | releasesUnheldLock thread => thread.text ++ " releases a lock it does not hold"
  | wokenWithoutLock thread holder =>
    "assertion `left == right` failed\n  left: " ++ ownerText holder
      ++ "\n right: " ++ ownerText (some thread)
  | conditionUnheld operation => "condition " ++ operation ++ " without holding its lock"
  | joinsItself thread => thread.text ++ " joins itself"
  | joinedTwice target => target.text ++ " joined more than once"
  | exitsThroughOther thread target =>
    thread.text ++ " exits through the join point of " ++ target.text
  | idleSleeps => "the idle context cannot sleep"
  | readiedUnblocked thread => thread.text ++ " readied while not blocked"
  | dispatchesFromThread thread => thread.text ++ " dispatches threads"
  | unknownObject kind index => "no " ++ kind ++ " " ++ toString index
  | unknownOperation name => "no operation " ++ name
  | raised text => text

end Violation

end Turnstile
