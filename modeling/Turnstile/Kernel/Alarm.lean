import Turnstile.Kernel.Bracket

/-!
# The alarm

Threads sleep until the clock shows a tick that they choose. The clock's interrupt wakes, at each
tick, all whose tick has come, in the order in which they are due.
-/

namespace Turnstile.Alarm

open Kernel

variable {σ : Type} [Machine σ]

/-- The sleepers. -/
def sleepers : KernelM σ SleepQueue := do
  requireMasked "alarm"
  return (← get).sleepers

/-- Change the sleepers. -/
def setSleepers (queue : SleepQueue) : KernelM σ Unit := do
  requireMasked "alarm"
  modify fun kernel => { kernel with sleepers := queue }

/-- Sleep for a number of ticks; for none or less, go on at once. -/
def waitUntil (ticks : Int) : KernelM σ Progress :=
  if ticks ≤ 0 then return .done .nothing
  else
    bracketCall do
      let thread ← currentThread
      let wakeAt := min ((← now) + ticks.toNat) greatestTick
      setSleepers ((← sleepers).insert wakeAt thread)
      sleep
      return .switched []

/-- Wake the next sleeper for as long as it is due when the clock shows `tick`, at most `bound`
times. Each leaves the queue just before it is woken. -/
def wakeNext (tick : Nat) : Nat → KernelM σ Unit
  | 0 => return ()
  | bound + 1 => do
    match (← sleepers).popDue tick with
    | (none, _) => return ()
    | (some thread, later) =>
      setSleepers later
      wake thread
      wakeNext tick bound

/-- Wake the sleepers that are due when the clock shows `tick`. Every turn takes one of them out, so
as many turns as there are sleepers are enough. -/
def wakeDue (tick : Nat) : KernelM σ Unit :=
  bracket do wakeNext tick (← sleepers).size

/-- The clock's interrupt: offer the processor to others, then wake the sleepers that are due. -/
def onTick (tick : Nat) : KernelM σ Progress := do
  if ← machineYield then
    wakeDue tick
    return .done .nothing
  else return .switched [.wakeDue tick]

/-- How many threads sleep. -/
def pending : KernelM σ Nat := bracket do return (← sleepers).size

/-- The tick of the next sleeper. -/
def nextDeadline : KernelM σ (Option Nat) := bracket do return (← sleepers).nextDeadline

end Turnstile.Alarm
