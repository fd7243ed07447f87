import Turnstile.Kernel.Bracket
import Turnstile.Tables.Access

/-!
# Scheduling calls

The operations of the scheduling tables as calls of a kernel. Those that a caller makes as one
step of something larger (`waitForAccess`, `acquire` and the reading and writing of weights)
ask for masked interrupts; the others mask them for themselves.

A thread's own exit is `finish`: its record is dropped and the thread never goes on.
-/

namespace Turnstile.Scheduler

open Kernel

variable {σ : Type} [Machine σ]

/-! ## Queues -/

/-- Make a queue. -/
def newQueue (donation : Bool) : KernelM σ QueueId :=
  bracket (updateTables "new_queue" fun tables => .ok (tables.newQueue donation))

/-- Close a queue that nobody waits on. -/
def closeQueue (id : QueueId) : KernelM σ Unit :=
  bracket (changeTables "close_queue" (·.closeQueue id))

/-- Put a thread among the waiters of a queue. -/
def waitForAccess (id : QueueId) (thread : ThreadId) : KernelM σ Unit :=
  changeTables "wait_for_access" (·.enqueue id thread)

/-- Make a thread the owner of a queue. -/
def acquire (id : QueueId) (thread : ThreadId) : KernelM σ Unit :=
  changeTables "acquire" (·.acquire id thread)

/-- Hand a queue to the best of its waiters. -/
def nextThread (id : QueueId) : KernelM σ (Option ThreadId) :=
  bracket (updateTables "next_thread" (·.handOver id))

/-- Whether nobody waits on a queue. -/
def isEmpty (id : QueueId) : KernelM σ Bool :=
  bracket (readTables "is_empty" fun tables => (tables.queue id).map (·.isEmpty))

/-- Who owns a queue. -/
def owner (id : QueueId) : KernelM σ (Option ThreadId) :=
  bracket (readTables "owner" fun tables => (tables.queue id).map (·.owner))

/-- How many threads wait on a queue. -/
def waiters (id : QueueId) : KernelM σ Nat :=
  bracket (readTables "waiters" fun tables => (tables.queue id).map (·.size))

/-- How many queues there are. -/
def queueCount : KernelM σ Nat :=
  bracket (readTables "queue_count" fun tables => .ok tables.queues.size)

/-! ## Weights -/

/-- The weight that a thread was given. -/
def getPriority (thread : ThreadId) : KernelM σ Int :=
  updateTables "get_priority" fun tables => .ok (tables.baseOf thread)

/-- The weight of a thread with all that is lent to it. -/
def getEffectivePriority (thread : ThreadId) : KernelM σ Int :=
  updateTables "get_effective_priority" (·.effective thread)

/-- Give a thread the legal weight nearest to the one asked for. -/
def setPriority (thread : ThreadId) (weight : Int) : KernelM σ Unit :=
  changeTables "set_priority" (·.setBase thread weight)

/-- Give a thread a weight if it is a legal one. -/
def trySetPriority (thread : ThreadId) (weight : Int) : KernelM σ (Except OutOfRange Unit) := do
  requireMasked "try_set_priority"
  match (← get).config.policy.check weight with
  | .error refusal => return .error refusal
  | .ok () =>
    changeTables "try_set_priority" (·.setBase thread weight)
    return .ok ()

/-- Change the caller's weight by one unless it stands at `bound`, and say whether it was
changed. -/
def stepPriority (operation : String) (step : Int) (atBound : Policy → Int → Bool) :
    KernelM σ Bool :=
  bracket do
    let thread ← currentThread
    let policy := (← get).config.policy
    let weight ← updateTables operation fun tables => .ok (tables.baseOf thread)
    if atBound policy weight then return false
    else
      changeTables operation (·.setBase thread (weight + step))
      return true

/-- Raise the caller's weight by one; at the maximum, say no. -/
def increasePriority : KernelM σ Bool :=
  stepPriority "increase_priority" 1 fun policy weight => policy.maximum ≤ weight

/-- Lower the caller's weight by one; at the minimum, say no. -/
def decreasePriority : KernelM σ Bool :=
  stepPriority "decrease_priority" (-1) fun policy weight => weight ≤ policy.minimum

/-! ## Threads -/

/-- Drop the record of a thread. -/
def exitThread (thread : ThreadId) : KernelM σ Unit :=
  bracket (changeTables "exit_thread" (·.forget thread))

/-- Drop the caller's record and end the caller. -/
def finish : KernelM σ Progress :=
  bracketCall do
    let thread ← currentThread
    changeTables "finish" (·.forget thread)
    requireMasked "finish"
    return .finished

/-- How many threads have a record. -/
def threadCount : KernelM σ Nat :=
  bracket (readTables "thread_count" fun tables => .ok tables.threads.size)

/-- Whether a thread has a record. -/
def knows (thread : ThreadId) : KernelM σ Bool :=
  bracket (readTables "knows" fun tables => .ok (tables.knows thread))

end Turnstile.Scheduler
