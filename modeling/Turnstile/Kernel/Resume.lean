import Turnstile.Kernel.Alarm
import Turnstile.Kernel.Condition
import Turnstile.Kernel.Join

/-!
# Going on with a call

A call that has switched away owes a list of tasks. When its thread holds the processor again it
carries them out in turn (`Kernel.resume`). A task may switch away once more, and what is left is
then owed after what that task owes; a task that fails takes the call with it, and the flags that
were still to be put back are put back (`Kernel.unwind`).
-/

namespace Turnstile

open Kernel

variable {σ : Type} [Machine σ]

/-- Carry out one task. -/
def Task.run : Task → KernelM σ Progress
  | leave saved => do
    restore saved
    return .done .nothing
  | confirm lock => do
    lock.confirm
    return .done .nothing
  | acquire lock => lock.acquire
  | recheck condition predicate passes => Condition.waitWhile condition predicate passes
  | wakeDue now => do
    Alarm.wakeDue now
    return .done .nothing

namespace Kernel

/-- Carry out what a call owes. `reply` is its answer so far, and its answer if it owes nothing
more. -/
def resume (reply : Reply) : List Task → KernelM σ Progress
  | [] => pure (.done reply)
  | task :: rest => fun kernel =>
    match task.run kernel with
    | .ok (.done reply) kernel => resume reply rest kernel
    | .ok (.switched owed) kernel => .ok (.switched (owed ++ rest)) kernel
    | .ok .finished kernel => .ok .finished (unwind rest kernel)
    | .error violation kernel => .error violation (unwind rest kernel)

end Kernel

end Turnstile
