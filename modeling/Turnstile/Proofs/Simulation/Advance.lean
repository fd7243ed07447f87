import Turnstile.Proofs.Kernel.Settling
import Turnstile.Simulation.Step

/-!
# What a step does

Scripts are held to rules: which requests the driver may make and which a thread may
(`Operation.keeps`). A system whose scripts keep to orderly requests, and in which nothing
has gone wrong so far, is orderly itself (`Simulation.Orderly`). What one step of it does
is written down once, as `Simulation.Advance`: a call is made or gone on with, a thread is
made, dispatched or at its end, the clock's interrupt is handled, or a context merely turns
to the next piece of its code (`Turns`).

`step_cases` is the inversion of `Simulation.step`: an orderly system advances and nothing goes
wrong, or a violation that is allowed has spoilt the run (`Simulation.Spoilt`).

Scripts may also be held to other rules, under which some sleeping threads wait nowhere
(`Simulation.OrderlyBut`) and requests do what else is said of them (`Performs`); `step_cases_by` is
the inversion for all of these.
-/

namespace Turnstile.Simulation

/-! ## Scripts that keep to rules -/

mutual

/-- Whether every request in an operation is one that its context may make. The driver spawns
threads, and it alone performs a timer's agenda. -/
def Operation.keeps (rules : Bool → Request → Bool) : Bool → Operation → Bool
  | driver, .request call => rules driver call
  | driver, .bracket body => keepAll rules driver body
  | driver, .times _ body => keepAll rules driver body
  | _, .spawn body => keepAll rules false body
  | _, .runTimer _ agenda => keepAgenda rules agenda
  | _, .status _ => true
  | _, .ticks => true
  | _, .raise _ => true
  | _, .run => true
  | _, .foreign _ => true

/-- Whether every request in some operations is one that their context may make. -/
def keepAll (rules : Bool → Request → Bool) : Bool → List Operation → Bool
  | _, [] => true
  | driver, operation :: rest => operation.keeps rules driver && keepAll rules driver rest

/-- Whether every request in an agenda is one that the driver may make. -/
def keepAgenda (rules : Bool → Request → Bool) : List (Nat × List Operation) → Bool
  | [] => true
  | entry :: rest => keepEntry rules entry && keepAgenda rules rest

/-- Whether every request in an entry of an agenda is one that the driver may make. -/
def keepEntry (rules : Bool → Request → Bool) : Nat × List Operation → Bool
  | (_, operations) => keepAll rules true operations

end

/-- Whether a piece of code keeps to the rules. Dispatching and ticking are the driver's. -/
def Code.keeps (rules : Bool → Request → Bool) (driver : Bool) : Code → Bool
  | .operation performed => performed.keeps rules driver
  | .leave _ => true
  | .dispatch _ => driver
  | .report _ => driver
  | .alarm _ => driver
  | .awaitTick timer _ => driver && keepAgenda rules timer.agenda
  | .endTick timer _ _ => driver && keepAgenda rules timer.agenda

variable {rules : Bool → Request → Bool} {driver : Bool}

theorem keepAll_iff {operations : List Operation} : keepAll rules driver operations = true ↔
    ∀ operation ∈ operations, operation.keeps rules driver = true := by
  induction operations with
  | nil => simp [keepAll]
  | cons operation rest ih => simp [keepAll, ih]

theorem keepAgenda_iff {agenda : List (Nat × List Operation)} :
    keepAgenda rules agenda = true ↔
      ∀ entry ∈ agenda, ∀ operation ∈ entry.2, operation.keeps rules true = true := by
  induction agenda with
  | nil => simp [keepAgenda]
  | cons entry rest ih =>
    obtain ⟨tick, operations⟩ := entry
    simp [keepAgenda, keepEntry, keepAll_iff, ih]

/-- Whether code keeps to the rules to its end. -/
def Kept (rules : Bool → Request → Bool) (driver : Bool) (code : List Code) : Prop :=
  ∀ piece ∈ code, piece.keeps rules driver = true

theorem kept_ofScript {script : List Operation} :
    Kept rules driver (Code.ofScript script) ↔ keepAll rules driver script = true := by
  simp [Kept, Code.ofScript, Code.keeps, keepAll_iff]

theorem kept_cons {piece : Code} {rest : List Code} :
    Kept rules driver (piece :: rest) ↔
      piece.keeps rules driver = true ∧ Kept rules driver rest := by
  simp [Kept]

theorem kept_append {code rest : List Code} :
    Kept rules driver (code ++ rest) ↔ Kept rules driver code ∧ Kept rules driver rest := by
  simp [Kept, or_imp, forall_and]

/-- What a timer has for a tick keeps to the rules if its agenda does. -/
theorem keepAll_operationsAt {timer : Timer} (kept : keepAgenda rules timer.agenda = true)
    (tick : Nat) : keepAll rules true (timer.operationsAt tick) = true := by
  rw [keepAgenda_iff] at kept
  rw [keepAll_iff]
  intro operation h
  obtain ⟨operations, ho, here⟩ := List.mem_flatten.mp h
  obtain ⟨entry, he, rfl⟩ := List.mem_map.mp ho
  exact kept entry (List.mem_of_mem_filter he) operation here

/-! ## Orderly systems -/

/-- A violation has ended some context. -/
def Raised (system : Simulation) (violation : Violation) : Prop :=
  system.machine.fault = some violation ∨
    ∃ entry ∈ system.entries, entry.result = .violated violation

/-- Nothing has gone wrong, and everybody stands where the kernel and the machine say, but for
strays that wait nowhere. While a thread has the processor, the driver is dispatching. -/
structure OrderlyBut (strays : ThreadId → Prop) (rules : Bool → Request → Bool)
    (system : Simulation) :
    Prop where
  sound : system.kernel.tables.Sound
  sane : system.kernel.scene.stage.Sane
  settled : system.kernel.scene.SettledBut strays
  kept : ∀ who context, system.contexts.get? who = some context →
    Kept rules (who = .idle) context.code
  driver : ∃ context, system.contexts.get? .idle = some context ∧ context.call = none ∧
    (system.machine.running ≠ none → ∃ name rest, context.code = .dispatch name :: rest)
  on : system.ended = false
  calm : ∀ violation, ¬ system.Raised violation

/-- Nothing has gone wrong, and everybody stands where the kernel and the machine say. -/
abbrev Orderly (rules : Bool → Request → Bool) (system : Simulation) : Prop :=
  OrderlyBut (fun _ => False) rules system

/-- A violation that is allowed has ended a context, and with it the run. -/
structure Spoilt (allowed : Violation → Prop) (system : Simulation) : Prop where
  raised : ∃ violation, system.Raised violation
  allows : ∀ violation, system.Raised violation → allowed violation
  halted : system.ended = true ∨
    (∃ violation, system.machine.fault = some violation) ∧ system.machine.running = none ∧
      ∃ name rest, system.contexts.get? .idle = some (.ofCode (.dispatch name :: rest))

/-- Where a call leaves the system that makes it, with `rest` to do after it. -/
inductive Lands (system : Simulation) (name : String) (rest : List Code) (scene : Scene) :
    Progress → Simulation → Prop
  | done {reply : Reply} {after : Simulation} (shows : after.kernel.Shows scene)
    (contexts : after.contexts = system.contexts.set system.current (.ofCode rest)) :
    Lands system name rest scene (.done reply) after
  | switched {owed : List Task} {after : Simulation} (shows : after.kernel.Shows scene)
    (contexts : after.contexts =
      system.contexts.set system.current { call := some (name, owed), code := rest }) :
    Lands system name rest scene (.switched owed) after
  | finished {after : Simulation} (thread : system.current ≠ .idle)
    (shows : after.kernel.Shows
      { scene with stage := scene.stage.retire system.current none })
    (contexts : after.contexts = system.contexts.erase system.current) :
    Lands system name rest scene .finished after

/-- What a context turns to that neither makes a request nor a thread, and what the clock
shows then. -/
inductive Turns (system : Simulation) : List Code → List Code → Nat → Prop
  | bracket {body : List Operation} {rest : List Code} :
    Turns system (.operation (.bracket body) :: rest)
      (Code.ofScript body ++ .leave system.machine.interrupts :: rest) system.machine.clock
  | never {body : List Operation} {rest : List Code} :
    Turns system (.operation (.times 0 body) :: rest) rest system.machine.clock
  | again {count : Nat} {body : List Operation} {rest : List Code} :
    Turns system (.operation (.times (count + 1) body) :: rest)
      (Code.ofScript body ++ .operation (.times count body) :: rest) system.machine.clock
  | status {name : ThreadName} {rest : List Code} :
    Turns system (.operation (.status name) :: rest) rest system.machine.clock
  | ticks {rest : List Code} : Turns system (.operation .ticks :: rest) rest system.machine.clock
  | run {rest : List Code} :
    Turns system (.operation .run :: rest) (.dispatch "run" :: .report "run" :: rest)
      system.machine.clock
  | runTimer {alarm : Bool} {agenda : List (Nat × List Operation)} {rest : List Code} :
    Turns system (.operation (.runTimer alarm agenda) :: rest)
      (.dispatch runTimerName :: .awaitTick { alarm, agenda } 0 :: rest) system.machine.clock
  | leave {saved : Bool} {rest : List Code} :
    Turns system (.leave saved :: rest) rest system.machine.clock
  | report {name : String} {rest : List Code} :
    Turns system (.report name :: rest) rest system.machine.clock
  /-- No thread is ready. -/
  | drained {name : String} {rest : List Code} (nobody : system.machine.ready = []) :
    Turns system (.dispatch name :: rest) rest system.machine.clock
  | stops {timer : Timer} {idle : Nat} {rest : List Code} :
    Turns system (.awaitTick timer idle :: rest) rest system.machine.clock
  /-- The clock ticks. -/
  | tick {timer : Timer} {idle : Nat} {saved : Bool} {rest : List Code} :
    Turns system (.awaitTick timer idle :: rest)
      (Code.ofScript (timer.operationsAt (system.machine.clock + 1))
        ++ (if timer.alarm then [Code.alarm (system.machine.clock + 1)] else [])
        ++ .endTick timer idle saved :: rest) (system.machine.clock + 1)
  | endTick {timer : Timer} {idle later : Nat} {saved : Bool} {rest : List Code} :
    Turns system (.endTick timer idle saved :: rest)
      (.dispatch runTimerName :: .awaitTick timer later :: rest) system.machine.clock

theorem Turns.other {system : Simulation} {code next : List Code} {clock : Nat}
    (turn : Turns system code next clock) (request : Request) (rest : List Code) :
    code ≠ .operation (.request request) :: rest := by
  rintro rfl
  cases turn

/-- What one step does, where requests do what `does` says. -/
inductive AdvanceBy (does : Prop → Scene → Request → Progress → Scene → Prop)
    (rules : Bool → Request → Bool) (system : Simulation) : Simulation → Prop
  /-- A call is made. -/
  | calls {request : Request} {rest : List Code} {progress : Progress} {scene : Scene}
    {after : Simulation}
    (there : system.contexts.get? system.current =
      some (.ofCode (.operation (.request request) :: rest)))
    (outcome : does (system.kernel.tables.queues.size < 4294967296) system.kernel.scene request
      progress scene)
    (lands : Lands system request.name rest scene progress after) :
    AdvanceBy does rules system after
  /-- A call goes on that had switched away. -/
  | resumes {name : String} {owed : List Task} {rest : List Code} {progress : Progress}
    {scene : Scene} {after : Simulation}
    (there : system.contexts.get? system.current = some { call := some (name, owed), code := rest })
    (resumed : Resumed system.kernel.scene owed progress scene)
    (lands : Lands system name rest scene progress after) : AdvanceBy does rules system after
  /-- The context turns to other code; the driver may set the clock. -/
  | turns {code next : List Code} {clock : Nat} {after : Simulation}
    (there : system.contexts.get? system.current = some (.ofCode code))
    (other : ∀ request rest, code ≠ .operation (.request request) :: rest)
    (kept : Kept rules (system.current = .idle) next)
    (shows : after.kernel.Shows
      { system.kernel.scene with stage := { system.kernel.scene.stage with clock } })
    (contexts : after.contexts = system.contexts.set system.current (.ofCode next))
    (turn : Turns system code next clock) : AdvanceBy does rules system after
  /-- A thread is made. -/
  | spawns {body : List Operation} {rest : List Code} {after : Simulation}
    (there : system.contexts.get? system.current =
      some (.ofCode (.operation (.spawn body) :: rest)))
    (shows : after.kernel.Shows
      { system.kernel.scene with stage := system.kernel.scene.stage.spawn })
    (contexts : after.contexts = (system.contexts.set ⟨system.kernel.scene.stage.nextThread⟩
      (.ofScript body)).set system.current (.ofCode rest)) :
    AdvanceBy does rules system after
  /-- The driver dispatches a thread. -/
  | dispatches {name : String} {rest : List Code} {thread : ThreadId} {ready : List ThreadId}
    {after : Simulation} (driver : system.current = .idle)
    (there : system.contexts.get? .idle = some (.ofCode (.dispatch name :: rest)))
    (first : system.kernel.scene.stage.ready = thread :: ready)
    (shows : after.kernel.Shows
      { system.kernel.scene with stage := system.kernel.scene.stage.dispatch thread ready })
    (contexts : after.contexts =
      system.contexts.set .idle (.ofCode (.dispatch name :: rest))) :
    AdvanceBy does rules system after
  /-- The alarm handles the clock's interrupt. -/
  | ticks {tick : Nat} {rest : List Code} {after : Simulation} (driver : system.current = .idle)
    (there : system.contexts.get? .idle = some (.ofCode (.alarm tick :: rest)))
    (shows : after.kernel.Shows (system.kernel.scene.wakeDue tick))
    (contexts : after.contexts = system.contexts.set .idle (.ofCode rest)) :
    AdvanceBy does rules system after
  /-- A thread is at the end of its code. -/
  | ends {after : Simulation} (thread : system.current ≠ .idle)
    (there : system.contexts.get? system.current = some (.ofCode []))
    (shows : after.kernel.Shows
      { system.kernel.scene with
        stage := system.kernel.scene.stage.retire system.current none })
    (contexts : after.contexts = system.contexts.erase system.current) :
    AdvanceBy does rules system after

/-- What one step does where all requests are orderly. -/
abbrev Advance (rules : Bool → Request → Bool) (system : Simulation) : Simulation → Prop :=
  AdvanceBy Request.Outcome rules system

/-- The system advances, and nothing goes wrong. -/
def AdvancesBy (does : Prop → Scene → Request → Progress → Scene → Prop)
    (rules : Bool → Request → Bool) (system after : Simulation) : Prop :=
  AdvanceBy does rules system after ∧ after.ended = false ∧ ∀ violation, ¬ after.Raised violation

/-- The system advances by orderly requests, and nothing goes wrong. -/
abbrev Advances (rules : Bool → Request → Bool) (system after : Simulation) : Prop :=
  AdvancesBy Request.Outcome rules system after

/-- Requests that keep to the rules do what `does` says, or fail. The driver does not end by one,
and a request does no more than calls do. -/
structure Performs (allowed : Violation → Prop) (strays : ThreadId → Prop)
    (rules : Bool → Request → Bool) (does : Prop → Scene → Request → Progress → Scene → Prop) :
    Prop where
  ends : ∀ {driver : Bool} {call : Request} {kernel : Kernel Uniprocessor} {scene : Scene},
    rules driver call = true → kernel.Shows scene → scene.SettledBut strays →
    Ends allowed call.perform kernel (does (kernel.tables.queues.size < 4294967296) scene call)
  stays : ∀ {call : Request} {room : Prop} {scene after : Scene}, rules true call = true →
    ¬ does room scene call .finished after
  goes : ∀ {call : Request} {room : Prop} {scene after : Scene} {progress : Progress},
    does room scene call progress after → scene.stage.Sane → scene.SettledBut strays →
    scene.GoesBut strays progress after

/-! ## The inversion of a step -/

section

variable {allowed : Violation → Prop} {strays : ThreadId → Prop} {system after : Simulation}
  {does : Prop → Scene → Request → Progress → Scene → Prop}
  (orderly : system.OrderlyBut strays rules)

/-- A system that has written nothing of violations is as calm as before. -/
theorem calm_of (calm : ∀ violation, ¬ system.Raised violation)
    (fault : after.machine.fault = system.machine.fault)
    (entries : ∀ entry ∈ after.entries, ∀ violation, entry.result = .violated violation →
      entry ∈ system.entries) (violation : Violation) : ¬ after.Raised violation := by
  rintro (pending | ⟨entry, he, result⟩)
  · exact calm violation (.inl (fault ▸ pending))
  · exact calm violation (.inr ⟨entry, entries entry he violation result, result⟩)

include orderly

theorem OrderlyBut.fault : system.machine.fault = none := by
  cases h : system.machine.fault with
  | none => rfl
  | some violation => exact absurd (.inl h) (orderly.calm violation)

theorem OrderlyBut.running_of_thread (thread : system.current ≠ .idle) :
    system.machine.running = some system.current := by
  have idle := orderly.sane.current_eq_idle_iff
  cases h : system.machine.running with
  | none => exact absurd (idle.mpr h) thread
  | some other =>
    have same : system.kernel.scene.current = other := Scene.current_of_running h
    exact congrArg some same.symm

/-- A violation that ends a context spoils the run. -/
theorem fail_spoilt {kernel : Kernel Uniprocessor} {name : String} {violation : Violation}
    (fault : kernel.machine.fault = system.machine.fault) (h : allowed violation) :
    Spoilt allowed (({ system with kernel } : Simulation).fail system.current name violation) := by
  unfold fail
  split
  -- The driver writes the violation down; a thread leaves it to the driver, which is dispatching.
  · refine ⟨⟨violation, .inr ⟨_, List.mem_cons_self, rfl⟩⟩, ?_, .inl rfl⟩
    rintro other (pending | ⟨entry, he, result⟩)
    · exact absurd (.inl (fault ▸ pending)) (orderly.calm other)
    · rcases List.mem_cons.mp he with rfl | old
      · cases result
        exact h
      · exact absurd (.inr ⟨entry, old, result⟩) (orderly.calm other)
  · rename_i thread
    have pending : (kernel.machine.retire system.current (some violation)).fault =
        some violation := by
      show kernel.machine.fault.or (some violation) = _
      rw [fault, orderly.fault]
      rfl
    refine ⟨⟨violation, .inl pending⟩, ?_, .inr ⟨⟨violation, pending⟩, rfl, ?_⟩⟩
    · rintro other (raised | ⟨entry, he, result⟩)
      · cases pending.symm.trans raised
        exact h
      · exact absurd (.inr ⟨entry, he, result⟩) (orderly.calm other)
    · obtain ⟨context, there, none, dispatching⟩ := orderly.driver
      obtain ⟨name, rest, code⟩ := dispatching (by simp [orderly.running_of_thread thread])
      refine ⟨name, rest, ?_⟩
      show (system.contexts.erase system.current).get? .idle = _
      rw [Directory.get?_erase, if_neg thread, there]
      obtain ⟨call, code⟩ := context
      cases none
      cases code
      rfl

/-- A call ends where its computation does, or spoils the run. -/
theorem carryOn_cases {name : String} {rest : List Code} {call : KernelM Uniprocessor Progress}
    {R : Progress → Scene → Prop} (ends : Ends allowed call system.kernel R)
    (driver : system.current = .idle → ∀ scene, ¬ R .finished scene) :
    (∃ progress scene, R progress scene ∧
      Lands system name rest scene progress (system.carryOn system.current name rest call) ∧
      (system.carryOn system.current name rest call).ended = false ∧
      ∀ violation, ¬ (system.carryOn system.current name rest call).Raised violation) ∨
    Spoilt allowed (system.carryOn system.current name rest call) := by
  unfold Ends at ends
  unfold carryOn
  split at ends
  · rename_i progress kernel ok
    obtain ⟨fault, scene, shows, holds⟩ := ends
    rw [ok]
    left
    cases progress with
    | done reply =>
      refine ⟨_, scene, holds, .done shows rfl, orderly.on, calm_of orderly.calm fault ?_⟩
      intro entry he violation result
      rcases List.mem_cons.mp he with rfl | old
      · cases result
      · exact old
    | switched owed =>
      exact ⟨_, scene, holds, .switched shows rfl, orderly.on,
        calm_of orderly.calm fault fun entry he _ _ => he⟩
    | finished =>
      dsimp only
      split
      · rename_i idle
        exact absurd holds (driver idle scene)
      · rename_i thread
        refine ⟨_, scene, holds, .finished thread (shows.machine ?_) rfl, orderly.on,
          calm_of orderly.calm ?_ fun entry he _ _ => he⟩
        · rw [← shows.stage]
          exact Uniprocessor.stage_retire kernel.machine system.current none
        · show kernel.machine.fault.or none = _
          rw [fault, Option.or_none]
          rfl
  · rename_i violation kernel failed
    rw [failed]
    exact .inr (fail_spoilt orderly ends.1 ends.2)

/-- The context turns to other code, and what it writes tells of no violation. -/
theorem turns_cases {kernel : Kernel Uniprocessor} {entries : List Entry} {code next : List Code}
    {clock : Nat} (there : system.contexts.get? system.current = some (.ofCode code))
    (turn : Turns system code next clock) (kept : Kept rules (system.current = .idle) next)
    (shows : kernel.Shows
      { system.kernel.scene with stage := { system.kernel.scene.stage with clock } })
    (written : entries = system.entries ∨
      ∃ who name reply, entries = .plain who name (.replied reply) :: system.entries) :
    AdvancesBy does rules system { system with
      kernel, entries, contexts := system.contexts.set system.current (.ofCode next) } := by
  have fault : kernel.machine.fault = system.machine.fault := congrArg (·.fault) shows.stage
  refine ⟨.turns there turn.other kept shows rfl turn, orderly.on, calm_of orderly.calm fault ?_⟩
  intro entry he violation result
  rcases written with rfl | ⟨who, name, reply, rfl⟩
  · exact he
  · rcases List.mem_cons.mp he with rfl | old
    · cases result
    · exact old

variable (usual : ∀ violation : Violation, violation.ordinary = true → allowed violation)
include usual

/-- An operation that begins advances the system or spoils the run. -/
theorem begin_cases (performs : Performs allowed strays rules does) {operation : Operation}
    {rest : List Code}
    (there : system.contexts.get? system.current = some (.ofCode (.operation operation :: rest))) :
    AdvancesBy does rules system (system.begin system.current rest operation) ∨
      Spoilt allowed (system.begin system.current rest operation) := by
  obtain ⟨keeps, kept⟩ := kept_cons.mp (orderly.kept _ _ there)
  have shows : system.kernel.Shows system.kernel.scene := ⟨orderly.sound, rfl⟩
  cases operation with
  | request call =>
    refine (carryOn_cases orderly (performs.ends keeps shows orderly.settled) ?_).imp_left ?_
    · intro idle scene outcome
      rw [decide_eq_true idle] at keeps
      exact performs.stays keeps outcome
    · rintro ⟨progress, scene, outcome, lands, quiet⟩
      exact ⟨.calls there outcome lands, quiet⟩
  | bracket body =>
    have kept : Kept rules (system.current = .idle)
        (Code.ofScript body ++ Code.leave system.machine.interrupts :: rest) :=
      kept_append.mpr ⟨kept_ofScript.mpr keeps, kept_cons.mpr ⟨rfl, kept⟩⟩
    exact .inl (turns_cases orderly there .bracket kept shows.masked (.inr ⟨_, _, _, rfl⟩))
  | times count body =>
    cases count with
    | zero => exact .inl (turns_cases orderly there .never kept shows (.inl rfl))
    | succ count =>
      have kept : Kept rules (system.current = .idle)
          (Code.ofScript body ++ Code.operation (.times count body) :: rest) :=
        kept_append.mpr ⟨kept_ofScript.mpr keeps, kept_cons.mpr ⟨keeps, kept⟩⟩
      exact .inl (turns_cases orderly there .again kept shows (.inl rfl))
  | spawn body =>
    have spawned := Uniprocessor.stage_spawn system.machine
    refine .inl ⟨.spawns there (shows.machine spawned.2) rfl, orderly.on,
      calm_of orderly.calm rfl ?_⟩
    intro entry he violation result
    rcases List.mem_cons.mp he with rfl | old
    · cases result
    · exact old
  | status name =>
    exact .inl (turns_cases orderly there .status kept shows (.inr ⟨_, _, _, rfl⟩))
  | ticks =>
    exact .inl (turns_cases orderly there .ticks kept shows (.inr ⟨_, _, _, rfl⟩))
  | raise text => exact .inr (fail_spoilt orderly rfl (usual _ rfl))
  | run =>
    unfold begin
    dsimp only
    split
    · rename_i idle
      have kept : Kept rules (system.current = .idle) (.dispatch "run" :: .report "run" :: rest) :=
        kept_cons.mpr ⟨by simpa [Code.keeps] using idle,
          kept_cons.mpr ⟨by simpa [Code.keeps] using idle, kept⟩⟩
      exact .inl (turns_cases orderly there .run kept shows (.inl rfl))
    · exact .inr (fail_spoilt orderly rfl (usual _ rfl))
  | runTimer alarm agenda =>
    unfold begin
    dsimp only
    split
    · rename_i idle
      have kept : Kept rules (system.current = .idle)
          (.dispatch runTimerName :: .awaitTick { alarm, agenda } 0 :: rest) :=
        kept_cons.mpr ⟨by simpa [Code.keeps] using idle, kept_cons.mpr
          ⟨by simpa [Code.keeps, idle, Operation.keeps] using keeps, kept⟩⟩
      exact .inl (turns_cases orderly there .runTimer kept shows (.inl rfl))
    · exact .inr (fail_spoilt orderly rfl (usual _ rfl))
  | foreign name => exact .inr (fail_spoilt orderly rfl (usual _ rfl))

omit usual in
/-- The driver dispatches a thread, or goes on with what is left when no thread is ready. -/
theorem dispatch_cases {name : String} {rest : List Code} (driver : system.current = .idle)
    (there : system.contexts.get? .idle = some (.ofCode (.dispatch name :: rest))) :
    AdvancesBy does rules system (system.dispatch .idle name (.dispatch name :: rest) rest) := by
  have shows : system.kernel.Shows system.kernel.scene := ⟨orderly.sound, rfl⟩
  have kept := kept_cons.mp (orderly.kept _ _ there)
  unfold dispatch
  rw [orderly.fault]
  dsimp only
  split
  · rename_i machine next
    obtain ⟨thread, ready, first, stage⟩ := Uniprocessor.dispatch?_eq_some next
    have fault : machine.fault = system.machine.fault := congrArg (·.fault) stage
    exact ⟨.dispatches driver there first (shows.machine stage) rfl, orderly.on,
      calm_of orderly.calm fault fun entry he _ _ => he⟩
  · rename_i none
    have nobody : system.machine.ready = [] := by
      unfold Uniprocessor.dispatch? at none
      split at none
      · assumption
      · cases none
    rw [← driver] at there ⊢
    exact turns_cases orderly there (.drained nobody)
      (by simpa [driver] using kept.2) shows (.inl rfl)

omit usual in
/-- The driver lets the clock tick, or says that it has stopped. -/
theorem awaitTick_cases {timer : Timer} {idle : Nat} {rest : List Code}
    (there : system.contexts.get? system.current =
      some (.ofCode (.awaitTick timer idle :: rest))) :
    AdvancesBy does rules system (system.awaitTick system.current timer idle rest) := by
  have shows : system.kernel.Shows system.kernel.scene := ⟨orderly.sound, rfl⟩
  obtain ⟨keeps, kept⟩ := kept_cons.mp (orderly.kept _ _ there)
  obtain ⟨driver, agenda⟩ := Bool.and_eq_true_iff.mp keeps
  unfold awaitTick
  split
  · exact turns_cases orderly there .stops kept shows (.inr ⟨_, _, _, rfl⟩)
  · have ticked : Kernel.Shows
        { system.kernel with
          machine := Uniprocessor.setInterrupts false
            { system.machine with clock := system.machine.clock + 1 } }
        { system.kernel.scene with
          stage := { system.kernel.scene.stage with clock := system.machine.clock + 1 } } := by
      refine shows.machine ?_
      rw [Uniprocessor.stage_setInterrupts]
      rfl
    refine turns_cases orderly there .tick ?_ ticked (.inl rfl)
    refine kept_append.mpr ⟨kept_append.mpr ⟨kept_ofScript.mpr ?_, ?_⟩, kept_cons.mpr ⟨keeps, kept⟩⟩
    · rw [driver]
      exact keepAll_operationsAt agenda _
    · split
      · exact kept_cons.mpr ⟨driver, by simp [Kept]⟩
      · simp [Kept]

/-- The alarm wakes the sleepers that are due: the driver keeps the processor when it offers it. -/
theorem handleTick_cases {tick : Nat} {rest : List Code}
    (there : system.contexts.get? system.current = some (.ofCode (.alarm tick :: rest))) :
    AdvancesBy does rules system (system.handleTick system.current tick rest) ∨
      Spoilt allowed (system.handleTick system.current tick rest) := by
  have shows : system.kernel.Shows system.kernel.scene := ⟨orderly.sound, rfl⟩
  have driver : system.current = .idle := by
    simpa [Code.keeps] using (kept_cons.mp (orderly.kept _ _ there)).1
  have ends := onTick_ends usual shows orderly.settled tick
  unfold Ends at ends
  unfold handleTick
  split at ends
  · rename_i progress kernel ok
    obtain ⟨fault, scene, shows, outcome⟩ := ends
    rw [ok]
    rw [driver] at there ⊢
    cases outcome with
    | idle => exact .inl ⟨.ticks driver there shows rfl, orderly.on,
        calm_of orderly.calm fault fun entry he _ _ => he⟩
    | thread runs =>
      have rests := orderly.sane.current_eq_idle_iff.mp driver
      rw [runs] at rests
      cases rests
  · rename_i violation kernel failed
    rw [failed]
    exact .inr (fail_spoilt orderly ends.1 ends.2)

/-- A piece of code advances the system or spoils the run. -/
theorem execute_cases (performs : Performs allowed strays rules does) {piece : Code}
    {rest : List Code}
    (there : system.contexts.get? system.current = some (.ofCode (piece :: rest))) :
    AdvancesBy does rules system (system.execute system.current rest piece) ∨
      Spoilt allowed (system.execute system.current rest piece) := by
  have shows : system.kernel.Shows system.kernel.scene := ⟨orderly.sound, rfl⟩
  obtain ⟨keeps, kept⟩ := kept_cons.mp (orderly.kept _ _ there)
  cases piece with
  | operation performed => exact begin_cases orderly usual performs there
  | leave saved =>
    exact .inl (turns_cases orderly there .leave kept (shows.withInterrupts saved) (.inl rfl))
  | dispatch name =>
    have driver : system.current = .idle := by simpa [Code.keeps] using keeps
    rw [driver] at there ⊢
    exact .inl (dispatch_cases orderly driver there)
  | report name => exact .inl (turns_cases orderly there .report kept shows (.inr ⟨_, _, _, rfl⟩))
  | awaitTick timer idle => exact .inl (awaitTick_cases orderly there)
  | alarm tick => exact handleTick_cases orderly usual there
  | endTick timer idle saved =>
    have flagged : Kernel.Shows
        { system.kernel with machine := Uniprocessor.setInterrupts saved system.machine }
        system.kernel.scene := shows.machine (Uniprocessor.stage_setInterrupts _ _)
    have kept : Kept rules (system.current = .idle) (.dispatch runTimerName ::
        .awaitTick timer (if system.machine.ready.isEmpty then idle + 1 else 0) :: rest) :=
      kept_cons.mpr ⟨(Bool.and_eq_true_iff.mp keeps).1, kept_cons.mpr ⟨keeps, kept⟩⟩
    exact .inl (turns_cases orderly there .endTick kept flagged (.inl rfl))

/-- A system that can make a step advances, or an allowed violation spoils the run. A lock slept for
is either trusted to have been handed over, or its not being so is allowed. -/
theorem step_cases_by (performs : Performs allowed strays rules does)
    (trusts : (∀ thread holder, allowed (.wokenWithoutLock thread holder)) ∨
      ∀ name owed rest, system.contexts.get? system.current =
        some { call := some (name, owed), code := rest } → system.kernel.scene.Trusts owed)
    (h : system.step = some after) : AdvancesBy does rules system after ∨ Spoilt allowed after := by
  have shows : system.kernel.Shows system.kernel.scene := ⟨orderly.sound, rfl⟩
  unfold step at h
  rw [orderly.on] at h
  simp only [Bool.false_eq_true, if_false] at h
  split at h
  · cases h
  · -- in a call
    rename_i name owed code there
    cases h
    have ends := resume_ends usual .nothing shows orderly.sane orderly.settled
      (trusts.imp_right fun trusts => trusts name owed code there)
    refine (carryOn_cases orderly ends fun _ scene resumed => resumed.goes_on).imp_left ?_
    rintro ⟨progress, scene, resumed, lands, quiet⟩
    exact ⟨.resumes there resumed lands, quiet⟩
  · -- between calls
    rename_i piece rest there
    cases h
    exact execute_cases orderly usual performs there
  · -- with nothing left to do: the driver stops, a thread ends
    rename_i there
    split at h
    · cases h
    · rename_i thread
      cases h
      have retired := Uniprocessor.stage_retire system.machine system.current none
      refine .inl ⟨.ends thread there (shows.machine retired) rfl, orderly.on,
        calm_of orderly.calm ?_ fun entry he _ _ => he⟩
      show system.machine.fault.or none = _
      rw [Option.or_none]

end

/-- Orderly requests do what their outcomes say. -/
theorem performs_orderly {allowed : Violation → Prop}
    (usual : ∀ violation : Violation, violation.ordinary = true → allowed violation)
    (legal : ∀ driver call, rules driver call = true → call.orderly driver = true) :
    Performs allowed (fun _ => False) rules Request.Outcome where
  ends kept shows settled := perform_ends usual shows settled (legal _ _ kept)
  stays kept outcome := by
    have orderly := legal _ _ kept
    rcases outcome.ends with rfl | ⟨index, rfl⟩ <;> simp [Request.orderly] at orderly
  goes outcome sane settled := outcome.goes sane settled

/-- The inversion of a step of an orderly system. -/
theorem step_cases {allowed : Violation → Prop} {system after : Simulation}
    (orderly : system.Orderly rules)
    (usual : ∀ violation : Violation, violation.ordinary = true → allowed violation)
    (legal : ∀ driver call, rules driver call = true → call.orderly driver = true)
    (trusts : (∀ thread holder, allowed (.wokenWithoutLock thread holder)) ∨
      ∀ name owed rest, system.contexts.get? system.current =
        some { call := some (name, owed), code := rest } → system.kernel.scene.Trusts owed)
    (h : system.step = some after) : Advances rules system after ∨ Spoilt allowed after :=
  step_cases_by orderly usual (performs_orderly usual legal) trusts h

end Turnstile.Simulation
