/-!
# Threads

A thread is known by a number alone. Nothing in the library orders threads or counts on how
their numbers are dealt out; two threads are the same exactly when their numbers agree.

* **`ThreadId`** names a thread, and `ThreadId.text` is how it appears in messages (`T3`).
* **`Status`** is the life of a kernel thread as a machine sees it.
-/

namespace Turnstile

/-- The identity of a thread. -/
structure ThreadId where
  number : Nat
deriving DecidableEq, Repr, Inhabited

namespace ThreadId

/-- The text of a thread in messages and logs. -/
def text (thread : ThreadId) : String := "T" ++ toString thread.number

/-- The context that dispatches the others. It is no kernel thread and cannot sleep. -/
def idle : ThreadId := ⟨0⟩

end ThreadId

/-- Where a kernel thread stands with its machine. -/
inductive Status
  /-- Waiting for the processor. -/
  | ready
  /-- Holding the processor. -/
  | running
  /-- Asleep until another context readies it. -/
  | blocked
  /-- Terminated; a finished thread never runs again. -/
  | finished
deriving DecidableEq, Repr, Inhabited

end Turnstile
