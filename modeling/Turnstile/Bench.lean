import Turnstile.Kernel.Request
import Turnstile.Log

/-!
# The bench

A machine worked by hand. It has one context, whose identity the script sets as it likes, so that
a single line of operations can play the parts of many threads and bring the tables into any
state.

* **Nothing ever resumes.** A call that goes to sleep is given up there and then: the flags it
  still had to put back are put back, what it did to the tables stays, and the script goes on.
* **Nothing is checked** by the machine itself. What it is asked to do (offering the processor,
  readying a thread) it only writes into the log, under names that begin with `!`.
* **Watching.** On request every entry carries a look at some threads and at the queues that the
  script made and has not closed.
-/

namespace Turnstile

/-- The state of the bench. -/
structure Bench where
  interrupts : Bool
  current : ThreadId
  clock : Nat
  /-- The log, latest entry first. -/
  entries : List Entry

namespace Bench

/-- Add an entry to the log. -/
def write (entry : Entry) (bench : Bench) : Bench :=
  { bench with entries := entry :: bench.entries }

/-- Note what the machine was asked to do. -/
def note (name : String) (reply : Reply) (bench : Bench) : Bench :=
  bench.write (.plain bench.current name (.replied reply))

end Bench

instance : Machine Bench where
  interrupts bench := bench.interrupts
  setInterrupts enabled bench := { bench with interrupts := enabled }
  current bench := bench.current
  now bench := bench.clock
  yield bench := (true, bench.note "!yield" (.flag bench.interrupts))
  sleep bench := .ok bench
  ready thread bench := .ok (bench.note "!ready" (.thread (some thread)))

namespace Bench

/-- An operation of a script for the bench. -/
inductive Operation
  | request (call : Request)
  /-- Hold a bracket around some operations. -/
  | bracket (body : List Operation)
  /-- Perform some operations several times. -/
  | times (count : Nat) (body : List Operation)
  /-- Go on as another thread. -/
  | become (thread : ThreadName)
  /-- Let the clock show another tick. -/
  | setClock (tick : Nat)
  /-- Give up. -/
  | raise (text : String)
  /-- Something that the bench does not have. It does no harm where it is never performed. -/
  | foreign (name : String)

/-- A script under way. -/
structure Session where
  kernel : Kernel Bench
  /-- The threads to look at after each operation, if looks are wanted. -/
  watched : Option (List ThreadId)
  /-- The queues to look at, in order of their making. -/
  tracked : List QueueId
  /-- Whether a violation has ended the script. -/
  ended : Bool

namespace Session

/-- A script about to begin. -/
def start (config : Config) (interrupts : Bool) (current : ThreadId)
    (watched : Option (List ThreadId)) : Session :=
  { kernel := .fresh { interrupts, current, clock := 0, entries := [] } config
    watched
    tracked := []
    ended := false }

/-- The log, first entry first. -/
def log (session : Session) : List Entry := session.kernel.machine.entries.reverse

/-- Change the machine. -/
def onMachine (f : Bench → Bench) (session : Session) : Session :=
  { session with kernel := { session.kernel with machine := f session.kernel.machine } }

/-- The thread whose part is being played. -/
def current (session : Session) : ThreadId := session.kernel.machine.current

/-- Enter an operation into the log, with a look if looks are wanted. A look that fails ends the
script. -/
def settle (who : ThreadId) (name : String) (result : Result) (session : Session) : Session :=
  match session.watched with
  | none => session.onMachine (write (.plain who name result))
  | some threads =>
    match session.kernel.tables.view threads session.tracked with
    | .ok (snapshot, tables) =>
      { session with kernel := { session.kernel with tables } }.onMachine
        (write { who, name, result, view := some (.taken snapshot) })
    | .error violation =>
      { session with ended := true }.onMachine
        (write { who, name, result, view := some (.failed violation) })

/-- Keep the list of queues to look at: those that requests made, without those they closed. -/
def track (request : Request) (reply : Reply) (session : Session) : Session :=
  match request, reply with
  | .newQueue _, .queue id => { session with tracked := session.tracked ++ [id] }
  | .lock, .queue id => { session with tracked := session.tracked ++ [id] }
  | .closeQueue id, _ => { session with tracked := session.tracked.filter (· ≠ id) }
  | _, _ => session

/-- End the script with a violation. -/
def fail (who : ThreadId) (name : String) (violation : Violation) (session : Session) : Session :=
  { session with ended := true }.onMachine (write (.plain who name (.violated violation)))

/-- Perform a request. A violation ends the script. -/
def perform (request : Request) (session : Session) : Session :=
  let who := session.current
  match request.perform session.kernel with
  | .ok (.done reply) kernel =>
    ({ session with kernel }.track request reply).settle who request.name (.replied reply)
  | .ok (.switched owed) kernel =>
    { session with kernel := kernel.unwind owed }.settle who request.name .blocked
  | .ok .finished kernel => { session with kernel }.settle who request.name .finished
  | .error violation kernel => { session with kernel }.fail who request.name violation

/-- Enter a bracket. -/
def enter (session : Session) : Session :=
  { session with kernel := session.kernel.masked }.onMachine
    (write (.plain session.current "bracket" (.replied (.flag session.kernel.machine.interrupts))))

/-- Leave a bracket. -/
def leave (saved : Bool) (session : Session) : Session :=
  { session with kernel := session.kernel.withInterrupts saved }

/-- Go on as another thread. -/
def become (thread : ThreadName) (session : Session) : Session :=
  let who := session.current
  let next :=
    match thread with
    | .id thread => thread
    | .me => who
  (session.onMachine fun bench => { bench with current := next }).settle who "become"
    (.replied .nothing)

/-- Let the clock show another tick. -/
def setClock (tick : Nat) (session : Session) : Session :=
  (session.onMachine fun bench => { bench with clock := tick }).settle session.current "set_now"
    (.replied .nothing)

/-- Do something a number of times, until the script has ended. -/
def repeated (f : Session → Session) : (count : Nat) → Session → Session
  | 0, session => session
  | count + 1, session => if session.ended then session else repeated f count (f session)

/-- Do something unless the script has ended. -/
def unlessEnded (f : Session → Session) (session : Session) : Session :=
  if session.ended then session else f session

end Session

mutual

/-- Perform one operation. -/
def Operation.run : Operation → Session → Session
  | .request call, session => session.unlessEnded (·.perform call)
  | .bracket body, session =>
    session.unlessEnded fun session =>
      (Operation.runAll body session.enter).leave session.kernel.machine.interrupts
  | .times count body, session => session.repeated (Operation.runAll body) count
  | .become thread, session => session.unlessEnded (·.become thread)
  | .setClock tick, session => session.unlessEnded (·.setClock tick)
  | .raise text, session =>
    session.unlessEnded fun session => session.fail session.current "panic" (.raised text)
  | .foreign name, session =>
    session.unlessEnded fun session =>
      session.fail session.current name (.unknownOperation name)

/-- Perform operations in order. -/
def Operation.runAll : List Operation → Session → Session
  | [], session => session
  | operation :: rest, session => Operation.runAll rest (operation.run session)

end

end Bench

end Turnstile
