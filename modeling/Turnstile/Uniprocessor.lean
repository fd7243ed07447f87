import Turnstile.Directory
import Turnstile.Machine

/-!
# A machine with one processor

Kernel threads take turns on a single processor. When none of them runs, the idle context does: it
dispatches the thread that has been ready for longest, and gets the processor back when that
thread yields, sleeps or ends.

* **Flags.** Every thread has an interrupt flag of its own, and so has the idle context. A thread
  begins with interrupts on.
* **Sleeping and waking** need interrupts off. The idle context cannot sleep, and only a thread
  that is asleep can be readied.
* **Faults.** A thread that ends by a violation leaves it behind (`fault`); the idle context takes
  it up before it dispatches anybody else.
-/

namespace Turnstile

/-- A thread as the machine knows it. -/
structure KernelThread where
  status : Status
  interrupts : Bool
deriving DecidableEq, Repr, Inhabited

/-- The state of a machine with one processor. -/
structure Uniprocessor where
  /-- The number of the next thread to be made. -/
  nextThread : Nat
  threads : Directory ThreadId KernelThread
  /-- The threads that can run, the next to be dispatched in front. -/
  ready : List ThreadId
  /-- The thread that holds the processor; nobody but the idle context otherwise. -/
  running : Option ThreadId
  idleInterrupts : Bool
  clock : Nat
  /-- The violation by which a thread ended. -/
  fault : Option Violation
deriving DecidableEq, Repr

namespace Uniprocessor

/-- The machine before anything has run. -/
def fresh : Uniprocessor :=
  { nextThread := 1
    threads := .empty
    ready := []
    running := none
    idleInterrupts := true
    clock := 0
    fault := none }

/-! ## Looking -/

/-- Where a thread stands. -/
def status? (machine : Uniprocessor) (thread : ThreadId) : Option Status :=
  (machine.threads.get? thread).map (·.status)

/-- The context that holds the processor. -/
def current (machine : Uniprocessor) : ThreadId := machine.running.getD .idle

/-- The thread that holds the processor, with what the machine knows of it. -/
def runner? (machine : Uniprocessor) : Option (ThreadId × KernelThread) :=
  machine.running.bind fun thread => (machine.threads.get? thread).map (thread, ·)

/-- Whether the current context can be interrupted. -/
def interrupts (machine : Uniprocessor) : Bool :=
  match machine.runner? with
  | some (_, state) => state.interrupts
  | none => machine.idleInterrupts

/-- Whether some thread is asleep. -/
def anyBlocked (machine : Uniprocessor) : Bool :=
  machine.threads.toList.any fun entry => entry.2.status = .blocked

/-! ## Changing -/

/-- Let the current context be interrupted, or not. -/
def setInterrupts (enabled : Bool) (machine : Uniprocessor) : Uniprocessor :=
  match machine.runner? with
  | some (thread, state) =>
    { machine with
      threads := machine.threads.set thread { state with interrupts := enabled } }
  | none => { machine with idleInterrupts := enabled }

/-- Note where a thread stands. -/
def setStatus (thread : ThreadId) (status : Status) (machine : Uniprocessor) : Uniprocessor :=
  { machine with
    threads := machine.threads.modify thread fun state => { state with status } }

/-- Make a thread that is ready to run. -/
def spawn (machine : Uniprocessor) : ThreadId × Uniprocessor :=
  let thread := ⟨machine.nextThread⟩
  (thread,
    { machine with
      nextThread := machine.nextThread + 1
      threads := machine.threads.set thread { status := .ready, interrupts := true }
      ready := machine.ready ++ [thread] })

/-- Give the processor to the thread that has been ready for longest, if there is one. -/
def dispatch? (machine : Uniprocessor) : Option Uniprocessor :=
  match machine.ready with
  | [] => none
  | thread :: rest =>
    some ({ machine with ready := rest, running := some thread }.setStatus thread .running)

/-- Take the processor from a thread that goes to the end of the ready threads. -/
def requeue (thread : ThreadId) (machine : Uniprocessor) : Uniprocessor :=
  { machine.setStatus thread .ready with ready := machine.ready ++ [thread], running := none }

/-- Take the processor from a thread that goes to sleep. -/
def block (thread : ThreadId) (machine : Uniprocessor) : Uniprocessor :=
  { machine.setStatus thread .blocked with running := none }

/-- Take the processor from a thread that has ended, and keep the violation that ended it unless
one is kept already. -/
def retire (thread : ThreadId) (violation : Option Violation) (machine : Uniprocessor) :
    Uniprocessor :=
  { machine.setStatus thread .finished with
    running := none
    fault := machine.fault.or violation }

/-- Offer the processor to the other threads. The idle context keeps it. -/
def yield (machine : Uniprocessor) : Bool × Uniprocessor :=
  match machine.running with
  | some thread => (false, machine.requeue thread)
  | none => (true, machine)

/-- Put the current thread to sleep. -/
def sleep (machine : Uniprocessor) : Except Violation Uniprocessor :=
  if machine.interrupts then .error (.interruptsEnabled "sleep")
  else
    match machine.running with
    | some thread => .ok (machine.block thread)
    | none => .error .idleSleeps

/-- Make a sleeping thread runnable, behind all that are. -/
def wake (thread : ThreadId) (machine : Uniprocessor) : Except Violation Uniprocessor :=
  if machine.interrupts then .error (.interruptsEnabled "ready")
  else if machine.status? thread = some .blocked then
    .ok { machine.setStatus thread .ready with ready := machine.ready ++ [thread] }
  else .error (.readiedUnblocked thread)

end Uniprocessor

instance : Machine Uniprocessor where
  interrupts := Uniprocessor.interrupts
  setInterrupts := Uniprocessor.setInterrupts
  current := Uniprocessor.current
  now := Uniprocessor.clock
  yield := Uniprocessor.yield
  sleep := Uniprocessor.sleep
  ready := Uniprocessor.wake

end Turnstile
