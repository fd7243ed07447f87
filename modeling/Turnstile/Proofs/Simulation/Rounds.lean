import Turnstile.Proofs.Simulation.Contexts
import Turnstile.Proofs.Simulation.Dispatching

/-!
# Rounds of a timer

While the driver is in `run_timer` it goes round: it dispatches until nobody is ready, decides
whether the clock ticks, performs what its agenda has for the tick (the callback), and counts the
tick. A `Phase` says where in the round it is and what it has still to do; `At` says that a system
is at that phase.

* **Callbacks** (`Code.calls`) neither dispatch nor tick. Each step of one takes something
  away from what there is to do (`callCost`), keeps the processor and leaves the clock
  alone (`execute_callback`).
* **Threads** have no part in the round but to run and to end (`still_of_thread`).
* **A step** (`At.goes_on_dispatching`, `At.goes_on_deciding`, `At.goes_on_calling`) moves from
  phase to phase (`Moves`), or ends ticking (`Stops`), or a violation has ended the script.
-/

namespace Turnstile.Simulation

open Kernel Uniprocessor

/-! ## Callbacks -/

mutual

/-- Whether an operation of the driver dispatches threads. -/
def Operation.dispatches : Operation → Bool
  | .run => true
  | .runTimer _ _ => true
  | .bracket body => anyDispatches body
  | .times 0 _ => false
  | .times (_ + 1) body => anyDispatches body
  | .request _ => false
  | .spawn _ => false
  | .status _ => false
  | .ticks => false
  | .raise _ => false
  | .foreign _ => false

/-- Whether one of some operations dispatches threads. -/
def anyDispatches : List Operation → Bool
  | [] => false
  | operation :: rest => operation.dispatches || anyDispatches rest

end

mutual

/-- At least as many steps as the driver takes for an operation that does not dispatch. -/
def Operation.cost : Operation → Nat
  | .bracket body => costs body + 2
  | .times count body => count * (costs body + 1) + 1
  | .run => 1
  | .runTimer _ _ => 1
  | .request _ => 1
  | .spawn _ => 1
  | .status _ => 1
  | .ticks => 1
  | .raise _ => 1
  | .foreign _ => 1

/-- At least as many steps as the driver takes for some operations that do not dispatch. -/
def costs : List Operation → Nat
  | [] => 0
  | operation :: rest => operation.cost + costs rest

end

/-- Whether a piece of code may stand in a callback. -/
def Code.calls : Code → Bool
  | .operation performed => !performed.dispatches
  | .leave _ => true
  | .alarm _ => true
  | .dispatch _ => false
  | .report _ => false
  | .awaitTick _ _ => false
  | .endTick _ _ _ => false

/-- What a piece of code costs. -/
def Code.cost : Code → Nat
  | .operation performed => performed.cost
  | _ => 1

/-- What is still to do of a callback, in steps. -/
def callCost : List Code → Nat
  | [] => 0
  | piece :: rest => piece.cost + callCost rest

/-- What the driver performs at a tick. -/
def Timer.callback (timer : Timer) (tick : Nat) : List Code :=
  Code.ofScript (timer.operationsAt tick) ++ if timer.alarm then [.alarm tick] else []

variable {system after : Simulation} {timer : Timer} {rest : List Code} {name : String}

theorem callCost_append (code more : List Code) :
    callCost (code ++ more) = callCost code + callCost more := by
  induction code with
  | nil => exact (Nat.zero_add _).symm
  | cons piece code ih =>
    show piece.cost + callCost (code ++ more) = piece.cost + callCost code + callCost more
    rw [ih, Nat.add_assoc]

theorem callCost_ofScript (script : List Operation) :
    callCost (Code.ofScript script) = costs script := by
  induction script with
  | nil => rfl
  | cons operation script ih =>
    show operation.cost + callCost (Code.ofScript script) = operation.cost + costs script
    rw [ih]

theorem calls_ofScript {script : List Operation} (quiet : anyDispatches script = false) :
    ∀ piece ∈ Code.ofScript script, piece.calls = true := by
  induction script with
  | nil =>
    intro piece here
    cases here
  | cons operation script ih =>
    obtain ⟨first, others⟩ := Bool.or_eq_false_iff.mp quiet
    intro piece here
    rcases List.mem_cons.mp here with rfl | here
    · show (!operation.dispatches) = true
      rw [first]
      rfl
    · exact ih others piece here

theorem Timer.calls_callback {tick : Nat}
    (quiet : anyDispatches (timer.operationsAt tick) = false) :
    ∀ piece ∈ timer.callback tick, piece.calls = true := by
  intro piece here
  rcases List.mem_append.mp here with script | alarm
  · exact calls_ofScript quiet piece script
  · split at alarm
    · rw [List.mem_singleton.mp alarm]
      rfl
    · cases alarm

/-! ## Steps that leave the clock alone -/

/-- The clock stands still, a driver keeps the processor, and a thread does not end the script. -/
structure Still (system after : Simulation) : Prop where
  clock : after.machine.clock = system.machine.clock
  limit : after.idleLimit = system.idleLimit
  rests : system.machine.running = none → after.machine.running = none
  ended : system.current ≠ .idle → after.ended = system.ended

/-- A change of something else than kernel, limit and end. -/
theorem Still.of_retains (retains : system.machine.Retains after.machine)
    (limit : after.idleLimit = system.idleLimit) (ended : after.ended = system.ended) :
    Still system after where
  clock := retains.clock
  limit := limit
  rests idle := retains.running.trans idle
  ended _ := ended

theorem fail_still {kernel : Kernel Uniprocessor} (retains : system.machine.Retains kernel.machine)
    (name : String) (violation : Violation) :
    Still system (({ system with kernel } : Simulation).fail system.current name violation) := by
  unfold fail
  split
  · rename_i driver
    exact ⟨retains.clock, rfl, fun idle => retains.running.trans idle,
      fun thread => absurd driver thread⟩
  · exact ⟨retains.clock, rfl, fun _ => rfl, fun _ => rfl⟩

theorem carryOn_still {call : KernelM Uniprocessor Progress}
    (serves : Serves system.machine (call system.kernel)) :
    Still system (system.carryOn system.current name rest call) := by
  unfold carryOn
  split
  · rename_i reply kernel ok
    rw [ok] at serves
    exact .of_retains serves rfl rfl
  · rename_i owed kernel ok
    rw [ok] at serves
    exact ⟨Departs.clock serves, rfl, fun idle => absurd idle (Departs.ran serves), fun _ => rfl⟩
  · rename_i kernel ok
    rw [ok] at serves
    have retains : system.machine.Retains kernel.machine := serves
    split
    · exact .of_retains retains rfl rfl
    · exact ⟨retains.clock, rfl, fun _ => rfl, fun _ => rfl⟩
  · rename_i violation kernel failed
    rw [failed] at serves
    exact fail_still serves name violation

theorem begin_still (operation : Operation) :
    Still system (system.begin system.current rest operation) := by
  cases operation with
  | request call => exact carryOn_still (call.serves system.kernel)
  | bracket body => exact .of_retains (.setInterrupts _ false) rfl rfl
  | times count body => cases count <;> exact .of_retains (.refl _) rfl rfl
  | spawn body => exact ⟨rfl, rfl, fun idle => idle, fun _ => rfl⟩
  | status thread => exact .of_retains (.refl _) rfl rfl
  | ticks => exact .of_retains (.refl _) rfl rfl
  | raise text => exact fail_still (.refl _) _ _
  | foreign name => exact fail_still (.refl _) _ _
  | run =>
    unfold begin
    dsimp only
    split
    · exact .of_retains (.refl _) rfl rfl
    · exact fail_still (.refl _) _ _
  | runTimer alarm agenda =>
    unfold begin
    dsimp only
    split
    · exact .of_retains (.refl _) rfl rfl
    · exact fail_still (.refl _) _ _

/-- Pieces that may stand anywhere leave the clock alone. -/
theorem execute_still (driver : Bool) {piece : Code} (free : piece.free driver = true) :
    Still system (system.execute system.current rest piece) := by
  cases piece with
  | operation performed => exact begin_still performed
  | leave saved => exact .of_retains (.setInterrupts _ saved) rfl rfl
  | alarm tick =>
    have serves := onTick_serves tick system.kernel
    show Still system (system.handleTick system.current tick rest)
    unfold handleTick
    split
    · rename_i progress kernel ok
      rw [ok] at serves
      cases progress with
      | done reply => exact .of_retains serves rfl rfl
      | finished => exact .of_retains serves rfl rfl
      | switched owed =>
        exact ⟨Departs.clock serves, rfl,
          fun idle => absurd idle (Departs.ran serves), fun _ => rfl⟩
    · rename_i violation kernel failed
      rw [failed] at serves
      exact fail_still serves _ _
  | endTick timer idle saved => exact .of_retains (.setInterrupts _ saved) rfl rfl
  | dispatch name => cases free
  | report name => cases free
  | awaitTick timer idle => cases free

/-- Whatever a thread does, no time passes. -/
theorem still_of_thread (poised : system.Poised) (thread : system.current ≠ .idle)
    (h : system.step = some after) : Still system after := by
  unfold step at h
  split at h
  · cases h
  · dsimp only at h
    split at h
    · cases h
    · cases h
      exact carryOn_still (resume_serves .nothing _ system.kernel)
    · rename_i piece rest there
      cases h
      obtain ⟨paired | ⟨driver, -⟩, -⟩ := poised.fits _ _ there
      · cases paired with
        | free free paired => exact execute_still _ free
        | pair drives => exact absurd (by simpa using drives) thread
      · exact absurd driver thread
    · split at h
      · cases h
      · cases h
        exact ⟨rfl, rfl, fun _ => rfl, fun _ => rfl⟩

/-- The machine has one entry for each thread. -/
theorem Poised.nodup_keys (poised : system.Poised) : system.machine.threads.keys.Nodup := by
  obtain ⟨events, led⟩ := poised.leads
  exact nodup_keys_of_runs led List.nodup_nil

/-- Whatever a thread does, the driver has the same to do. -/
theorem driver_of_thread (poised : system.Poised) (thread : system.current ≠ .idle)
    (h : system.step = some after) : after.contexts.get? .idle = system.contexts.get? .idle := by
  rcases step_others h (Ne.symm thread) with same | ⟨new, -⟩
  · exact same
  · have numbered : 0 < system.machine.nextThread := poised.sane.numbered
    have : 0 = system.machine.nextThread := congrArg ThreadId.number new
    omega

/-! ## Steps of a callback -/

/-- Where a step leaves a driver that has code to go on with: a violation has ended the script, or
it has that code to go on with after some more of a callback, which costs less than `cost`. -/
def GoesOn (system after : Simulation) (rest : List Code) (cost : Nat) : Prop :=
  after.ended = true ∨ after.ended = system.ended ∧ ∃ code,
    after.contexts.get? .idle = some (.ofCode (code ++ rest)) ∧
      (∀ piece ∈ code, piece.calls = true) ∧ callCost code < cost

theorem GoesOn.ofCode {cost : Nat} (positive : 0 < cost) (ended : after.ended = system.ended)
    (code : after.contexts.get? .idle = some (.ofCode rest)) : GoesOn system after rest cost :=
  .inr ⟨ended, [], code, fun _ here => (List.not_mem_nil here).elim, positive⟩

section

variable (driver : system.current = .idle)
include driver

theorem set_driver (contexts : Directory ThreadId Context) (context : Context) :
    (contexts.set system.current context).get? .idle = some context := by
  rw [Directory.get?_set, if_pos driver]

theorem fail_goesOn (kernel : Kernel Uniprocessor) (violation : Violation) (cost : Nat) :
    GoesOn system (({ system with kernel } : Simulation).fail system.current name violation) rest
      cost := by
  refine .inl ?_
  rw [fail, if_pos driver]

theorem carryOn_goesOn {call : KernelM Uniprocessor Progress} (idle : system.machine.running = none)
    (serves : Serves system.machine (call system.kernel)) :
    GoesOn system (system.carryOn system.current name rest call) rest 1 := by
  unfold carryOn
  split
  · exact .ofCode Nat.one_pos rfl (set_driver driver _ _)
  · rename_i owed kernel ok
    rw [ok] at serves
    exact absurd idle (Departs.ran serves)
  · rw [if_pos driver]
    exact .ofCode Nat.one_pos rfl (set_driver driver _ _)
  · exact fail_goesOn driver _ _ _

theorem begin_goesOn (idle : system.machine.running = none) {operation : Operation}
    (quiet : operation.dispatches = false) :
    GoesOn system (system.begin system.current rest operation) rest operation.cost := by
  cases operation with
  | request call => exact carryOn_goesOn driver idle (call.serves system.kernel)
  | bracket body =>
    refine .inr ⟨rfl, Code.ofScript body ++ [.leave system.machine.interrupts], ?_, ?_, ?_⟩
    · rw [List.append_assoc]
      exact set_driver driver _ _
    · exact List.forall_mem_append.mpr ⟨calls_ofScript quiet, List.forall_mem_singleton.mpr rfl⟩
    · rw [callCost_append, callCost_ofScript]
      show costs body + 1 < costs body + 2
      omega
  | times count body =>
    cases count with
    | zero => exact .ofCode (Nat.succ_pos _) rfl (set_driver driver _ _)
    | succ count =>
      refine .inr ⟨rfl, Code.ofScript body ++ [.operation (.times count body)], ?_, ?_, ?_⟩
      · rw [List.append_assoc]
        exact set_driver driver _ _
      · have others : (Operation.times count body).dispatches = false := by
          cases count with
          | zero => rfl
          | succ count => exact quiet
        have calls : (Code.operation (.times count body)).calls = true := congrArg not others
        exact List.forall_mem_append.mpr ⟨calls_ofScript quiet, List.forall_mem_singleton.mpr calls⟩
      · -- the body is put in front, but one round fewer is left
        rw [callCost_append, callCost_ofScript]
        show costs body + (count * (costs body + 1) + 1) < (count + 1) * (costs body + 1) + 1
        rw [Nat.succ_mul]
        omega
  | spawn body => exact .ofCode Nat.one_pos rfl (set_driver driver _ _)
  | status thread => exact .ofCode Nat.one_pos rfl (set_driver driver _ _)
  | ticks => exact .ofCode Nat.one_pos rfl (set_driver driver _ _)
  | raise text => exact fail_goesOn driver system.kernel _ _
  | foreign name => exact fail_goesOn driver system.kernel _ _
  | run => cases quiet
  | runTimer alarm agenda => cases quiet

/-- A piece of a callback takes the driver further through it. -/
theorem execute_callback (idle : system.machine.running = none) {piece : Code}
    (calls : piece.calls = true) :
    GoesOn system (system.execute system.current rest piece) rest piece.cost ∧
      Still system (system.execute system.current rest piece) := by
  cases piece with
  | operation performed =>
    have quiet : performed.dispatches = false := by simpa [Code.calls] using calls
    exact ⟨begin_goesOn driver idle quiet, begin_still performed⟩
  | leave saved =>
    exact ⟨.ofCode Nat.one_pos rfl (set_driver driver _ _), execute_still true rfl⟩
  | alarm tick =>
    refine ⟨?_, execute_still true rfl⟩
    show GoesOn system (system.handleTick system.current tick rest) rest 1
    unfold handleTick
    split
    · exact .ofCode Nat.one_pos rfl (set_driver driver _ _)
    · exact fail_goesOn driver _ _ _
  | dispatch name => cases calls
  | report name => cases calls
  | awaitTick timer idle => cases calls
  | endTick timer idle saved => cases calls

end

/-! ## Phases -/

/-- Where in a round the driver is. It carries along how many ticks in a row have been idle, and
within a callback the flag that it is to put back. -/
inductive Phase
  | dispatching (idle : Nat)
  | deciding (idle : Nat)
  | calling (code : List Code) (idle : Nat) (saved : Bool)

/-- What the driver has to do from a phase on, with `rest` to do after ticking. -/
def Phase.code (timer : Timer) (rest : List Code) : Phase → List Code
  | dispatching idle => .dispatch runTimerName :: .awaitTick timer idle :: rest
  | deciding idle => .awaitTick timer idle :: rest
  | calling code idle saved => code ++ .endTick timer idle saved :: rest

/-- How the machine stands in a phase. Threads run only while the driver dispatches. -/
def Phase.Suits (system : Simulation) : Phase → Prop
  | dispatching _ => True
  | deciding _ => system.machine.running = none ∧ system.machine.ready = []
  | calling code _ _ => system.machine.running = none ∧ ∀ piece ∈ code, piece.calls = true

/-- The driver is at a phase. -/
structure At (timer : Timer) (rest : List Code) (system : Simulation) (phase : Phase) : Prop where
  on : system.ended = false
  code : system.contexts.get? .idle = some (.ofCode (phase.code timer rest))
  suits : phase.Suits system

/-- What a step does that leads from one phase to another. -/
inductive Moves (timer : Timer) (system after : Simulation) : Phase → Phase → Prop
  | dispatches {idle : Nat} (clock : after.machine.clock = system.machine.clock) :
    Moves timer system after (.dispatching idle) (.dispatching idle)
  | drains {idle : Nat} (kernel : after.kernel = system.kernel) :
    Moves timer system after (.dispatching idle) (.deciding idle)
  | ticks {idle : Nat} (goes : system.clockStops idle = false)
    (machine : after.machine =
      { system.machine with clock := system.machine.clock + 1 }.setInterrupts false) :
    Moves timer system after (.deciding idle)
      (.calling (timer.callback (system.machine.clock + 1)) idle system.machine.interrupts)
  | performs {code more : List Code} {idle : Nat} {saved : Bool}
    (clock : after.machine.clock = system.machine.clock) (less : callCost more < callCost code) :
    Moves timer system after (.calling code idle saved) (.calling more idle saved)
  | closes {idle : Nat} {saved : Bool}
    (machine : after.machine = system.machine.setInterrupts saved) :
    Moves timer system after (.calling [] idle saved)
      (.dispatching (if system.machine.ready.isEmpty then idle + 1 else 0))

/-- Ticking ends: the driver writes that down and goes on with `rest`. -/
def Stops (rest : List Code) (system after : Simulation) : Prop :=
  after = (system.write .idle runTimerName (.replied .nothing)).setContext .idle (.ofCode rest)

theorem Stops.code (stops : Stops rest system after) :
    after.contexts.get? .idle = some (.ofCode rest) := by
  rw [stops]
  exact (Directory.get?_set _ _ _ _).trans (if_pos rfl)

namespace At

variable {phase : Phase} (stands : At timer rest system phase)
include stands

theorem step_of_driver (driver : system.current = .idle) {piece : Code} {more : List Code}
    (code : phase.code timer rest = piece :: more) :
    system.step = some (system.execute system.current more piece) := by
  have there : system.contexts.get? system.current = some (.ofCode (piece :: more)) := by
    rw [driver, stands.code, code]
  simp only [step, stands.on, Bool.false_eq_true, if_false, there, Context.ofCode]

end At

theorem current_of_rests (rests : system.machine.running = none) : system.current = .idle := by
  unfold current Uniprocessor.current
  rw [rests]
  rfl

/-- Dispatching goes on until nobody is ready. -/
theorem At.goes_on_dispatching {idle : Nat} (stands : At timer rest system (.dispatching idle))
    (poised : system.Poised) (h : system.step = some after) : after.idleLimit = system.idleLimit ∧
      (after.ended = true ∨
        ∃ phase, At timer rest after phase ∧
          Moves timer system after (.dispatching idle) phase) := by
  by_cases driver : system.current = .idle
  · -- the driver picks a thread or finds nobody
    obtain rfl : after = system.dispatch system.current runTimerName
        (.dispatch runTimerName :: .awaitTick timer idle :: rest) (.awaitTick timer idle :: rest) :=
      Option.some.inj (h.symm.trans (stands.step_of_driver driver rfl))
    unfold dispatch
    split
    · rename_i violation fault
      rw [fail, if_pos driver]
      exact ⟨rfl, .inl rfl⟩
    · split
      · rename_i machine next
        obtain ⟨thread, others, first, stage⟩ := dispatch?_eq_some next
        refine ⟨rfl,
          .inr ⟨.dispatching idle, ⟨stands.on, set_driver driver _ _, trivial⟩, .dispatches ?_⟩⟩
        exact congrArg (·.clock) stage
      · rename_i none
        exact ⟨rfl, .inr ⟨.deciding idle, ⟨stands.on, set_driver driver _ _,
          poised.rests driver, dispatch?_eq_none none⟩, .drains rfl⟩⟩
  · -- a thread has the processor
    have still := still_of_thread poised driver h
    refine ⟨still.limit, .inr ⟨.dispatching idle, ⟨?_, ?_, trivial⟩, .dispatches still.clock⟩⟩
    · rw [still.ended driver, stands.on]
    · rw [driver_of_thread poised driver h, stands.code]

/-- Where nobody is ready the clock ticks, or ticking ends. -/
theorem At.goes_on_deciding {idle : Nat} (stands : At timer rest system (.deciding idle))
    (quiet : ∀ tick, anyDispatches (timer.operationsAt tick) = false)
    (h : system.step = some after) : after.idleLimit = system.idleLimit ∧
      ((∃ phase, At timer rest after phase ∧ Moves timer system after (.deciding idle) phase) ∨
        system.clockStops idle = true ∧ Stops rest system after) := by
  have rests := stands.suits.1
  have driver := current_of_rests rests
  obtain rfl : after = system.awaitTick system.current timer idle rest :=
    Option.some.inj (h.symm.trans (stands.step_of_driver driver rfl))
  unfold awaitTick
  split
  · rename_i stops
    refine ⟨rfl, .inr ⟨stops, ?_⟩⟩
    rw [driver]
    rfl
  · rename_i goes
    refine ⟨rfl,
      .inl ⟨.calling (timer.callback (system.machine.clock + 1)) idle system.machine.interrupts,
      ⟨stands.on, set_driver driver _ _, ?_, ?_⟩, .ticks (Bool.eq_false_iff.mpr goes) rfl⟩⟩
    · exact (Retains.setInterrupts _ false).running.trans rests
    · exact Timer.calls_callback (quiet _)

/-- A callback goes on to its end. -/
theorem At.goes_on_calling {code : List Code} {idle : Nat} {saved : Bool}
    (stands : At timer rest system (.calling code idle saved))
    (h : system.step = some after) : after.idleLimit = system.idleLimit ∧
      (after.ended = true ∨ ∃ phase,
        At timer rest after phase ∧ Moves timer system after (.calling code idle saved) phase) := by
  obtain ⟨rests, calls⟩ := stands.suits
  have driver := current_of_rests rests
  cases code with
  | nil =>
    obtain rfl : after = system.execute system.current rest (.endTick timer idle saved) :=
      Option.some.inj (h.symm.trans (stands.step_of_driver driver rfl))
    exact ⟨rfl, .inr ⟨.dispatching (if system.machine.ready.isEmpty then idle + 1 else 0),
      ⟨stands.on, set_driver driver _ _, trivial⟩, .closes rfl⟩⟩
  | cons piece code =>
    obtain rfl : after = system.execute system.current
      (code ++ .endTick timer idle saved :: rest) piece :=
      Option.some.inj (h.symm.trans (stands.step_of_driver driver rfl))
    obtain ⟨goes, still⟩ :=
      @execute_callback system (code ++ .endTick timer idle saved :: rest) driver rests
      piece (calls piece List.mem_cons_self)
    refine ⟨still.limit, goes.imp_right ?_⟩
    -- the piece leaves `begun` in its place, before the rest of the callback
    rintro ⟨ended, begun, there, called, less⟩
    refine ⟨.calling (begun ++ code) idle saved, ⟨ended.trans stands.on, ?_, still.rests rests, ?_⟩,
      .performs still.clock ?_⟩
    · rw [there]
      show _ = some (Context.ofCode (begun ++ code ++ _))
      rw [List.append_assoc]
    · intro other here
      rcases List.mem_append.mp here with here | here
      · exact called other here
      · exact calls other (List.mem_cons_of_mem piece here)
    · rw [callCost_append]
      exact Nat.add_lt_add_right less _

end Turnstile.Simulation
