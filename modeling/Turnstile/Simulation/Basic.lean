import Turnstile.Log
import Turnstile.Simulation.Script
import Turnstile.Uniprocessor

/-!
# Systems under simulation

Scripts for kernel threads, run on a machine with one processor. The script of the idle context
makes the threads and dispatches them; each thread has a script of its own. All share one kernel
and one log.

A state says where everybody stands. Each context has the code that it has still to run and, if
it has switched away within a call, what that call owes.
-/

namespace Turnstile

namespace Simulation

/-- A piece of code. -/
inductive Code
  | operation (operation : Operation)
  /-- Leave a bracket. -/
  | leave (saved : Bool)
  /-- Give the processor to ready threads until there is none, on behalf of an operation. -/
  | dispatch (name : String)
  /-- Say that an operation has ended. -/
  | report (name : String)
  /-- Let the clock tick, unless nobody sleeps or too many ticks have been idle. -/
  | awaitTick (timer : Timer) (idle : Nat)
  /-- Handle the clock's interrupt. -/
  | alarm (tick : Nat)
  /-- End a tick: put the flag back and count the tick if it was idle. -/
  | endTick (timer : Timer) (idle : Nat) (saved : Bool)

/-- The code of a script. -/
def Code.ofScript (script : List Operation) : List Code := script.map operation

/-- What a context has still to do. -/
structure Context where
  /-- The name of the call that it has switched away from, and what that call owes. -/
  call : Option (String × List Task)
  code : List Code

namespace Context

/-- A context that begins to perform some operations. -/
def ofScript (script : List Operation) : Context :=
  { call := none, code := Code.ofScript script }

/-- A context between calls. -/
def ofCode (code : List Code) : Context := { call := none, code }

end Context

end Simulation

/-- A system under simulation. -/
structure Simulation where
  kernel : Kernel Uniprocessor
  /-- How many ticks in a row may leave no thread ready. -/
  idleLimit : Nat
  contexts : Directory ThreadId Simulation.Context
  /-- The log, latest entry first. -/
  entries : List Entry
  /-- Whether a violation has ended the script. -/
  ended : Bool

namespace Simulation

/-- The name under which ticking is logged. -/
def runTimerName : String := "run_timer"

/-- How many idle ticks in a row are allowed unless otherwise said. -/
def defaultIdleLimit : Nat := 100000

/-- The system in which the idle context is about to begin its script. -/
def start (config : Config) (idleLimit : Nat) (script : List Operation) : Simulation :=
  { kernel := .fresh .fresh config
    idleLimit
    contexts := Directory.empty.set .idle (.ofScript script)
    entries := []
    ended := false }

/-- The log, first entry first. -/
def log (system : Simulation) : List Entry := system.entries.reverse

/-- The machine. -/
def machine (system : Simulation) : Uniprocessor := system.kernel.machine

/-- The context that holds the processor. -/
def current (system : Simulation) : ThreadId := system.machine.current

/-! ## Small changes -/

/-- Put another machine in place. -/
def withMachine (machine : Uniprocessor) (system : Simulation) : Simulation :=
  { system with kernel := { system.kernel with machine } }

/-- Add an entry to the log. -/
def write (who : ThreadId) (name : String) (result : Result) (system : Simulation) :
    Simulation :=
  { system with entries := .plain who name result :: system.entries }

/-- Note what a context has still to do. -/
def setContext (who : ThreadId) (context : Context) (system : Simulation) : Simulation :=
  { system with contexts := system.contexts.set who context }

/-- End a thread. -/
def endThread (thread : ThreadId) (violation : Option Violation) (system : Simulation) :
    Simulation :=
  { system with contexts := system.contexts.erase thread }.withMachine
    (system.machine.retire thread violation)

/-- A context cannot go on. A thread is ended; with the idle context the script ends. -/
def fail (who : ThreadId) (name : String) (violation : Violation) (system : Simulation) :
    Simulation :=
  if who = .idle then { system.write who name (.violated violation) with ended := true }
  else system.endThread who (some violation)

end Simulation

end Turnstile
