import Turnstile.Violation

/-!
# Machines

What a kernel asks of the machine beneath it. One context holds the processor at a time; each
context has an interrupt flag of its own, and every answer below is about the context that asks.

* **The flag.** `interrupts` reads it and `setInterrupts` writes it. Code that must not be
  interrupted clears the flag and afterwards puts back the value it found.
* **The processor.** `yield` may pass it on, `sleep` gives it up until the caller is readied.
  A machine notes that the caller has stopped; it is whoever steps the machine that keeps what
  the caller has still to do.
* **Waking.** `ready` makes a sleeping thread runnable again.
-/

namespace Turnstile

/-- The services that a state of type `σ` offers to the context that holds the processor. -/
class Machine (σ : Type) where
  /-- Whether the current context can be interrupted. -/
  interrupts : σ → Bool
  /-- Let the current context be interrupted, or not. -/
  setInterrupts : Bool → σ → σ
  /-- The current context. -/
  current : σ → ThreadId
  /-- What the clock shows. -/
  now : σ → Nat
  /-- Offer the processor to others. The first part tells whether the caller keeps it. -/
  yield : σ → Bool × σ
  /-- Give up the processor until readied. -/
  sleep : σ → Except Violation σ
  /-- Make a sleeping thread runnable. -/
  ready : ThreadId → σ → Except Violation σ

end Turnstile
