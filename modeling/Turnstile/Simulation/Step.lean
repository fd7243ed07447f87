import Turnstile.Kernel.Resume
import Turnstile.Simulation.Basic

/-!
# Running a simulation

A step (`Simulation.step`) lets whoever holds the processor do one thing: carry on with its call,
or begin the next piece of its code. A run is a number of steps.

* **Dispatching.** The idle context hands the processor to the thread that has been ready for
  longest, and looks again when it comes back.
* **Ticking.** Between two rounds of dispatching the clock ticks, if some thread is asleep. The
  idle context, interrupts masked, performs what its agenda has for the tick and then, if the
  alarm is attached, handles the clock's interrupt. It gives up after `idleLimit` ticks in a row
  that left no thread ready.
* **Violations.** One on the idle context ends the script. One on a thread ends the thread, and
  the idle context ends the script with it as soon as it has the processor back.
-/

namespace Turnstile.Simulation

/-- Carry on with a call, with `rest` to do after it. -/
def carryOn (who : ThreadId) (name : String) (rest : List Code)
    (call : KernelM Uniprocessor Progress) (system : Simulation) : Simulation :=
  match call system.kernel with
  | .ok (.done reply) kernel =>
    ({ system with kernel }.write who name (.replied reply)).setContext who (.ofCode rest)
  | .ok (.switched owed) kernel =>
    { system with kernel }.setContext who { call := some (name, owed), code := rest }
  | .ok .finished kernel =>
    if who = .idle then
      ({ system with kernel }.write who name .finished).setContext who (.ofCode rest)
    else { system with kernel }.endThread who none
  | .error violation kernel => { system with kernel }.fail who name violation

/-- Begin an operation, with `rest` to do after it. -/
def begin (who : ThreadId) (rest : List Code) (system : Simulation) :
    Operation → Simulation
  | .request call => system.carryOn who call.name rest call.perform
  | .bracket body =>
    let saved := system.machine.interrupts
    ({ system with kernel := system.kernel.masked }.write who "bracket"
        (.replied (.flag saved))).setContext who
      (.ofCode (Code.ofScript body ++ Code.leave saved :: rest))
  | .times 0 _ => system.setContext who (.ofCode rest)
  | .times (count + 1) body =>
    system.setContext who
      (.ofCode (Code.ofScript body ++ Code.operation (.times count body) :: rest))
  | .spawn body =>
    let (thread, machine) := system.machine.spawn
    (((system.withMachine machine).setContext thread (.ofScript body)).write who "spawn"
      (.replied (.thread (some thread)))).setContext who (.ofCode rest)
  | .status thread =>
    let named :=
      match thread with
      | .id thread => thread
      | .me => who
    (system.write who "status"
      (.replied (.status (system.machine.status? named)))).setContext who (.ofCode rest)
  | .ticks =>
    (system.write who "ticks" (.replied (.tick system.machine.clock))).setContext who
      (.ofCode rest)
  | .raise text => system.fail who "panic" (.raised text)
  | .foreign name => system.fail who name (.unknownOperation name)
  | .run =>
    if who = .idle then
      system.setContext who (.ofCode (.dispatch "run" :: .report "run" :: rest))
    else system.fail who "run" (.dispatchesFromThread who)
  | .runTimer alarm agenda =>
    if who = .idle then
      system.setContext who
        (.ofCode (.dispatch runTimerName :: .awaitTick { alarm, agenda } 0 :: rest))
    else system.fail who runTimerName (.dispatchesFromThread who)

/-- Give the processor to the next ready thread, or take up the violation of one that has ended.
`again` is to be done when the processor comes back, `rest` when no thread is ready. -/
def dispatch (who : ThreadId) (name : String) (again rest : List Code) (system : Simulation) :
    Simulation :=
  match system.machine.fault with
  | some violation =>
    (system.withMachine { system.machine with fault := none }).fail who name violation
  | none =>
    match system.machine.dispatch? with
    | some machine => (system.withMachine machine).setContext who (.ofCode again)
    | none => system.setContext who (.ofCode rest)

/-- Whether the clock stands still from now on. -/
def clockStops (system : Simulation) (idle : Nat) : Bool :=
  !system.machine.anyBlocked || system.idleLimit ≤ idle

/-- Let the clock tick, or say that ticking has ended. -/
def awaitTick (who : ThreadId) (timer : Timer) (idle : Nat) (rest : List Code)
    (system : Simulation) : Simulation :=
  if system.clockStops idle then
    (system.write who runTimerName (.replied .nothing)).setContext who (.ofCode rest)
  else
    let tick := system.machine.clock + 1
    let saved := system.machine.interrupts
    (system.withMachine ({ system.machine with clock := tick }.setInterrupts false)).setContext who
      (.ofCode (Code.ofScript (timer.operationsAt tick)
        ++ (if timer.alarm then [Code.alarm tick] else [])
        ++ Code.endTick timer idle saved :: rest))

/-- Handle the clock's interrupt. -/
def handleTick (who : ThreadId) (tick : Nat) (rest : List Code) (system : Simulation) :
    Simulation :=
  match Alarm.onTick tick system.kernel with
  | .ok _ kernel => { system with kernel }.setContext who (.ofCode rest)
  | .error violation kernel => { system with kernel }.fail who runTimerName violation

/-- Run one piece of code, with `rest` to do after it. -/
def execute (who : ThreadId) (rest : List Code) (system : Simulation) : Code → Simulation
  | .operation operation => system.begin who rest operation
  | .leave saved =>
    { system with kernel := system.kernel.withInterrupts saved }.setContext who (.ofCode rest)
  | .dispatch name => system.dispatch who name (.dispatch name :: rest) rest
  | .report name => (system.write who name (.replied .nothing)).setContext who (.ofCode rest)
  | .awaitTick timer idle => system.awaitTick who timer idle rest
  | .alarm tick => system.handleTick who tick rest
  | .endTick timer idle saved =>
    let idle := if system.machine.ready.isEmpty then idle + 1 else 0
    (system.withMachine (system.machine.setInterrupts saved)).setContext who
      (.ofCode (.dispatch runTimerName :: .awaitTick timer idle :: rest))

/-- Let whoever holds the processor do one thing. There is nothing to do once the script of the
idle context is at its end. -/
def step (system : Simulation) : Option Simulation :=
  if system.ended then none
  else
    let who := system.current
    match system.contexts.get? who with
    | none => none
    | some { call := some (name, owed), code } =>
      some (system.carryOn who name code (Kernel.resume .nothing owed))
    | some { call := none, code := piece :: rest } => some (system.execute who rest piece)
    | some { call := none, code := [] } =>
      if who = .idle then none else some (system.endThread who none)

/-- The system after at most `count` steps. -/
def steps : (count : Nat) → Simulation → Simulation
  | 0, system => system
  | count + 1, system =>
    match system.step with
    | some system => steps count system
    | none => system

/-- How many steps `run` is prepared to make. -/
def horizon : Nat := 4611686018427387904

/-- The system when its script is at its end. -/
def run (system : Simulation) : Simulation := steps horizon system

/-- Where every thread stands, in order of their making. -/
def statuses (system : Simulation) : List (ThreadId × Status) :=
  system.machine.threads.toList.map fun entry => (entry.1, entry.2.status)

end Turnstile.Simulation
