import Turnstile.Kernel.Request

/-!
# Scripts of kernel threads

What kernel threads and the idle context perform. Besides requests to the kernel a script can
make threads, ask the machine about them, give up, and, on the idle context, dispatch.

* **`run`** gives the processor to ready threads until there is none.
* **`runTimer`** does so again and again, with a tick of the clock in between for as long as some
  thread is asleep. At each tick the idle context performs what its agenda has for that tick.
-/

namespace Turnstile.Simulation

/-- An operation of a script. -/
inductive Operation
  | request (call : Request)
  /-- Hold a bracket around some operations. -/
  | bracket (body : List Operation)
  /-- Perform some operations several times. -/
  | times (count : Nat) (body : List Operation)
  /-- Make a thread that performs some operations. -/
  | spawn (body : List Operation)
  /-- Ask where a thread stands. -/
  | status (thread : ThreadName)
  /-- Ask what the clock shows. -/
  | ticks
  /-- Give up. -/
  | raise (text : String)
  /-- Dispatch threads until none is ready. -/
  | run
  /-- Dispatch threads while the clock ticks. -/
  | runTimer (alarm : Bool) (agenda : List (Nat × List Operation))
  /-- Something that a simulation does not have. It does no harm where it is never performed. -/
  | foreign (name : String)

/-- What the clock does at each tick. -/
structure Timer where
  /-- Whether the alarm handles the clock's interrupt. -/
  alarm : Bool
  /-- What the idle context performs, tick by tick. -/
  agenda : List (Nat × List Operation)

/-- The operations that a timer has for a tick. -/
def Timer.operationsAt (timer : Timer) (tick : Nat) : List Operation :=
  ((timer.agenda.filter (·.1 = tick)).map (·.2)).flatten

end Turnstile.Simulation
