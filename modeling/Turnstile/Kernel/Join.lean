import Turnstile.Kernel.Scheduling

/-!
# Join points

A join point lets one thread wait for the exit of another, its target. It is a donating queue
that the target owns until it exits, so that the target runs with the weight of whoever waits
for it. A target can be joined once. Its exit wakes the joiner, closes the queue and ends the
target.

Join points are known by their place in the kernel's list.
-/

namespace Turnstile.Join

open Kernel

variable {σ : Type} [Machine σ]

/-- Make the join point of a thread. -/
def create (target : ThreadId) : KernelM σ Join := do
  let queue ← Scheduler.newQueue true
  bracket (Scheduler.acquire queue target)
  let point := { queue, target, joined := false, done := false }
  modify fun kernel => { kernel with joins := kernel.joins ++ [point] }
  return point

/-- The join point made in place `index`. -/
def lookup (index : Nat) : KernelM σ Join := do
  match (← get).joins[index]? with
  | some point => return point
  | none => throw (.unknownObject "join point" index)

/-- Change the join point in place `index`. -/
def amend (index : Nat) (f : Join → Join) : KernelM σ Unit :=
  modify fun kernel => { kernel with joins := kernel.joins.modify index f }

/-- Sleep until the target has exited. -/
def join (index : Nat) : KernelM σ Progress := do
  let point ← lookup index
  let thread ← currentThread
  if thread = point.target then throw (.joinsItself thread)
  else if point.joined then throw (.joinedTwice point.target)
  else
    amend index fun point => { point with joined := true }
    bracketCall do
      if (← lookup index).done then return .done .nothing
      else
        Scheduler.waitForAccess point.queue thread
        sleep
        return .switched []

/-- Exit as the target: wake the joiner, close the queue, and end the caller. -/
def exit (index : Nat) : KernelM σ Progress := do
  let point ← lookup index
  let thread ← currentThread
  if thread = point.target then
    bracketCall do
      amend index fun point => { point with done := true }
      match ← Scheduler.nextThread point.queue with
      | some joiner => wake joiner
      | none => pure ()
      Scheduler.closeQueue point.queue
      Scheduler.finish
  else throw (.exitsThroughOther thread point.target)

end Turnstile.Join
