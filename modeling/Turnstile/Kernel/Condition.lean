import Turnstile.Kernel.Lock

/-!
# Conditions

Threads that wait for something to become true under a lock. A waiter gives up the lock and goes
to sleep in one step; once signalled it takes the lock again before it goes on, and others may
take it first. So a waiter that needs a predicate to be false looks again each time
(`waitWhile`).

Conditions are known by their place in the kernel's list. Signals wake waiters in order of
arrival.
-/

namespace Turnstile.Condition

open Kernel

variable {σ : Type} [Machine σ]

/-- Make a condition under a lock. -/
def create (lock : Lock) : KernelM σ Condition := do
  let condition := { lock, waiting := [] }
  modify fun kernel => { kernel with conditions := kernel.conditions ++ [condition] }
  return condition

/-- The condition made in place `index`. -/
def lookup (index : Nat) : KernelM σ Condition := do
  match (← get).conditions[index]? with
  | some condition => return condition
  | none => throw (.unknownObject "condition" index)

/-- Who waits to be signalled, in order of arrival. -/
def waitingAt (index : Nat) : KernelM σ (List ThreadId) := do
  requireMasked "condition"
  return (← lookup index).waiting

/-- Change who waits to be signalled. -/
def setWaitingAt (index : Nat) (threads : List ThreadId) : KernelM σ Unit := do
  requireMasked "condition"
  modify fun kernel =>
    { kernel with
      conditions := kernel.conditions.modify index fun condition =>
        { condition with waiting := threads } }

/-- Refuse callers that do not hold the lock. -/
def requireHeld (condition : Condition) (operation : String) : KernelM σ Unit := do
  if ← condition.lock.isHeld then return () else throw (.conditionUnheld operation)

/-- Give up the lock and sleep until signalled; then take the lock again. -/
def wait (index : Nat) : KernelM σ Progress := do
  let condition ← lookup index
  requireHeld condition "wait"
  let slept ← bracketCall do
    let thread ← currentThread
    setWaitingAt index ((← waitingAt index) ++ [thread])
    condition.lock.release
    sleep
    return .switched []
  return slept.owing [.acquire condition.lock]

/-- Wait for as long as the predicate holds, and count how often it was looked at. -/
def waitWhile (index : Nat) (predicate : Memory → Bool) (passes : Nat) :
    KernelM σ Progress := do
  if predicate (← get).memory then
    let waited ← wait index
    return waited.owing [.recheck index predicate (passes + 1)]
  else return .done (.count (passes + 1))

/-- Wake the longest waiter, if there is one. -/
def signal (index : Nat) : KernelM σ Unit := do
  requireHeld (← lookup index) "signal"
  bracket do
    match ← waitingAt index with
    | [] => return ()
    | first :: rest =>
      setWaitingAt index rest
      wake first

/-- Wake waiters one after another. Each leaves the line just before it is woken. -/
def wakeLine (index : Nat) : List ThreadId → KernelM σ Unit
  | [] => return ()
  | first :: rest => do
    setWaitingAt index rest
    wake first
    wakeLine index rest

/-- Wake every waiter. -/
def broadcast (index : Nat) : KernelM σ Unit := do
  requireHeld (← lookup index) "broadcast"
  bracket do wakeLine index (← waitingAt index)

/-- How many threads wait to be signalled. -/
def waiters (index : Nat) : KernelM σ Nat :=
  bracket do return (← waitingAt index).length

end Turnstile.Condition
