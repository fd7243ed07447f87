import Turnstile.Kernel.Basic
import Turnstile.Machine

/-!
# Calls and brackets

What a thread asks of a kernel is a computation in `KernelM`, which keeps the state also when it
fails.

Shared state is only touched with the caller's interrupts masked.

* **`bracket`** and **`bracketCall`** mask them, run a body, and put the flag back as it was,
  whether the body succeeds, fails, or ends the thread. A body that switches away keeps the
  bracket; putting the flag back is then the last of what it owes.
* **`requireMasked`** refuses to go on otherwise. All access to tables, conditions and sleepers,
  and every sleep and wake-up within a call, goes through it.
* **`unwind`** puts back the flags of a call that is given up on its way.
-/

namespace Turnstile

/-- Computations on a kernel. They may fail, and keep the state when they do. -/
abbrev KernelM (σ : Type) := EStateM Violation (Kernel σ)

namespace Kernel

variable {σ α : Type} [Machine σ]

/-! ## The machine -/

/-- The context that calls. -/
def currentThread : KernelM σ ThreadId := fun kernel =>
  .ok (Machine.current kernel.machine) kernel

/-- What the clock shows. -/
def now : KernelM σ Nat := fun kernel => .ok (Machine.now kernel.machine) kernel

/-- Whether the caller can be interrupted. -/
def interrupts : KernelM σ Bool := fun kernel =>
  .ok (Machine.interrupts kernel.machine) kernel

/-- Offer the processor to others, and say whether the caller keeps it. -/
def machineYield : KernelM σ Bool := fun kernel =>
  let (keeps, machine) := Machine.yield kernel.machine
  .ok keeps { kernel with machine }

/-- Give up the processor, as far as the machine lets the caller. -/
def machineSleep : KernelM σ Unit := fun kernel =>
  match Machine.sleep kernel.machine with
  | .ok machine => .ok () { kernel with machine }
  | .error violation => .error violation kernel

/-- Make a thread runnable, as far as the machine lets the caller. -/
def machineReady (thread : ThreadId) : KernelM σ Unit := fun kernel =>
  match Machine.ready thread kernel.machine with
  | .ok machine => .ok () { kernel with machine }
  | .error violation => .error violation kernel

/-- The kernel after the current context's flag is set. -/
def withInterrupts (kernel : Kernel σ) (enabled : Bool) : Kernel σ :=
  { kernel with machine := Machine.setInterrupts enabled kernel.machine }

/-- The kernel after the current context has masked interrupts. -/
def masked (kernel : Kernel σ) : Kernel σ :=
  { kernel.withInterrupts false with maskings := kernel.maskings + 1 }

/-- Mask interrupts, and say whether they were on. -/
def mask : KernelM σ Bool := fun kernel =>
  .ok (Machine.interrupts kernel.machine) kernel.masked

/-- Put the flag back. -/
def restore (saved : Bool) : KernelM σ Unit := fun kernel =>
  .ok () (kernel.withInterrupts saved)

/-! ## Brackets -/

/-- Run a body with interrupts masked. -/
def bracket (body : KernelM σ α) : KernelM σ α := fun kernel =>
  let saved := Machine.interrupts kernel.machine
  match body kernel.masked with
  | .ok a kernel => .ok a (kernel.withInterrupts saved)
  | .error violation kernel => .error violation (kernel.withInterrupts saved)

/-- Run the body of a call with interrupts masked, until the call is over. -/
def bracketCall (body : KernelM σ Progress) : KernelM σ Progress := fun kernel =>
  let saved := Machine.interrupts kernel.machine
  match body kernel.masked with
  | .ok (.switched owed) kernel => .ok (.switched (owed ++ [.leave saved])) kernel
  | .ok (.done reply) kernel => .ok (.done reply) (kernel.withInterrupts saved)
  | .ok .finished kernel => .ok .finished (kernel.withInterrupts saved)
  | .error violation kernel => .error violation (kernel.withInterrupts saved)

/-- Refuse to go on with interrupts on. -/
def requireMasked (operation : String) : KernelM σ Unit := fun kernel =>
  if Machine.interrupts kernel.machine then .error (.interruptsEnabled operation) kernel
  else .ok () kernel

/-- Look at the tables. -/
def readTables (operation : String) (f : Tables → Except Violation α) : KernelM σ α := do
  requireMasked operation
  fun kernel =>
    match f kernel.tables with
    | .ok a => .ok a kernel
    | .error violation => .error violation kernel

/-- Change the tables. -/
def updateTables (operation : String) (f : Tables → Except Violation (α × Tables)) :
    KernelM σ α := do
  requireMasked operation
  fun kernel =>
    match f kernel.tables with
    | .ok (a, tables) => .ok a { kernel with tables }
    | .error violation => .error violation kernel

/-- Change the tables without an answer. -/
def changeTables (operation : String) (f : Tables → Except Violation Tables) :
    KernelM σ Unit :=
  updateTables operation fun tables => (f tables).map fun tables => ((), tables)

/-- Give up the processor until readied. -/
def sleep : KernelM σ Unit := do
  requireMasked "sleep"
  machineSleep

/-- Make a sleeping thread runnable. -/
def wake (thread : ThreadId) : KernelM σ Unit := do
  requireMasked "ready"
  machineReady thread

/-- What flags are put back when a call is given up with `owed` still to do. -/
def unwind (owed : List Task) (kernel : Kernel σ) : Kernel σ :=
  owed.foldl (fun kernel task =>
    match task with
    | .leave saved => kernel.withInterrupts saved
    | _ => kernel) kernel

end Kernel

end Turnstile
