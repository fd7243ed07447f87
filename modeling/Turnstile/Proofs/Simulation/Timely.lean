import Turnstile.Proofs.Kernel.Reaching
import Turnstile.Proofs.Queue.Sleepers
import Turnstile.Proofs.Simulation.Contexts
import Turnstile.Proofs.Simulation.Schedule

/-!
# Steps beside the clock

A system whose scripts leave the clock to the alarm, and attend to it, is timely
(`Simulation.Timely`): sleepers are in waking order, the driver is on its schedule, and no call owes
the handling of a tick. What a step of it does to time and to sleepers is one of three things
(`Beat`): the clock stands still, and at most one thread goes to sleep; or the clock ticks; or the
alarm handles the tick that the clock shows, and wakes the sleepers that are due.

`Timely.schedule_beat` says that a step is one of the three, `Timely.advances` that it keeps a
system timely.
-/

namespace Turnstile

open Kernel

namespace Simulation

variable {system after : Simulation}

/-! ## The driver's code -/

/-- What the driver has still to do. -/
def duties (system : Simulation) : List Code :=
  ((system.contexts.get? .idle).map (·.code)).getD []

/-- The alarm has yet to handle a tick. -/
def Pending (system : Simulation) (tick : Nat) : Prop := .alarm tick ∈ system.duties

theorem duties_of_get? {context : Context} (there : system.contexts.get? .idle = some context) :
    system.duties = context.code := by
  simp [duties, there]

theorem duties_set {contexts : Directory ThreadId Context} {who : ThreadId} {context : Context}
    (same : after.contexts = contexts.set who context)
    (others : contexts.get? .idle = system.contexts.get? .idle) :
    after.duties = if who = .idle then context.code else system.duties := by
  unfold duties
  rw [same, Directory.get?_set]
  split
  · rfl
  · rw [others]

theorem duties_erase {who : ThreadId} (same : after.contexts = system.contexts.erase who)
    (thread : who ≠ .idle) : after.duties = system.duties := by
  unfold duties
  rw [same, Directory.get?_erase, if_neg thread]

/-! ## Where calls lead -/

section

variable {name : String} {rest : List Code} {scene : Scene} {progress : Progress}
  (lands : Lands system name rest scene progress after)
include lands

theorem Lands.duties : after.duties = if system.current = .idle then rest else system.duties := by
  cases lands with
  | done shows contexts | switched shows contexts => exact duties_set contexts rfl
  | finished thread shows contexts => rw [if_neg thread, duties_erase contexts thread]

theorem Lands.clock : after.machine.clock = scene.stage.clock := by
  cases lands with
  | done shows | switched shows | finished thread shows => exact congrArg (·.clock) shows.stage

theorem Lands.sleepers : after.kernel.sleepers = scene.sleepers := by
  obtain ⟨stage, same⟩ := lands.scene_eq
  exact congrArg (·.sleepers) same

/-- A call ends its caller or nobody. -/
theorem Lands.status {thread : ThreadId} (other : thread ≠ system.current) :
    after.machine.status? thread = scene.stage.status thread := by
  show after.kernel.machine.stage.status thread = _
  cases lands with
  | done shows | switched shows => rw [shows.stage]
  | finished away shows =>
    rw [shows.stage]
    exact if_neg other.symm

end

/-! ## Timely systems -/

/-- Nothing has gone wrong, the driver is on its schedule, and what calls owe does not handle ticks.
Every thread that has not ended has something to do. -/
structure Timely (system : Simulation) : Prop where
  orderly : system.OrderlyBut (fun _ => True) Request.timely
  sorted : system.kernel.sleepers.Sorted
  schedule : Schedule system.machine.clock system.machine.ready system.duties
  hushed : ∀ who name owed code,
    system.contexts.get? who = some { call := some (name, owed), code } → Hushed owed
  manned : ∀ thread, system.kernel.scene.stage.Unfinished thread →
    (system.contexts.get? thread).isSome = true

/-- The alarm is about to handle the tick that the clock shows. -/
def Handles (system : Simulation) : Prop :=
  system.current = .idle ∧ ∃ rest, system.duties = .alarm system.machine.clock :: rest

/-- What a step does to time and to sleepers. -/
inductive Beat (system after : Simulation) : Prop
  | still (clock : after.machine.clock = system.machine.clock)
    (pending : ∀ tick, system.Pending tick → after.Pending tick)
    (sleepers : after.kernel.sleepers = system.kernel.sleepers ∨
      ∃ tick, after.kernel.sleepers = system.kernel.sleepers.insert tick system.current)
  | ticks (nobody : system.machine.ready = []) (rests : system.machine.running = none)
    (handled : ∀ tick, ¬ system.Pending tick)
    (clock : after.machine.clock = system.machine.clock + 1)
    (pending : after.Pending (system.machine.clock + 1))
    (sleepers : after.kernel.sleepers = system.kernel.sleepers)
  | handles (handles : system.Handles)
    (shows : after.kernel.Shows (system.kernel.scene.wakeDue system.machine.clock))

/-- Who is to be woken at the tick that the clock shows, the first to be woken in front. -/
def due (system : Simulation) : List ThreadId :=
  (system.kernel.sleepers.drainDue system.machine.clock).1

/-- The sleeper is asleep, and its tick has not come or has yet to be handled. -/
structure Dozes (system : Simulation) (sleeper : Sleeper) : Prop where
  listed : sleeper ∈ system.kernel.sleepers.sleepers
  asleep : system.machine.status? sleeper.thread = some .blocked
  early : system.machine.clock < sleeper.wakeAt ∨
    system.machine.clock = sleeper.wakeAt ∧ system.Pending sleeper.wakeAt

/-- The alarm handles the tick of the sleeper, which the clock shows, and readies all who are due:
the sleeper is one of them. -/
structure Wakes (system : Simulation) (sleeper : Sleeper) (after : Simulation) : Prop where
  handles : system.Handles
  clock : system.machine.clock = sleeper.wakeAt
  ready : after.machine.ready = system.machine.ready ++ system.due
  left : after.kernel.sleepers = (system.kernel.sleepers.drainDue system.machine.clock).2
  woken : sleeper.thread ∈ system.due

/-! ## Contexts of those who have not ended -/

/-- Contexts are put in the place of others. -/
theorem isSome_set {contexts : Directory ThreadId Context} {context : Context}
    {who thread : ThreadId}
    (there : (contexts.get? thread).isSome = true) :
    ((contexts.set who context).get? thread).isSome = true := by
  rw [Directory.get?_set]
  split
  · rfl
  · exact there

/-- The context of a thread goes when the thread ends. -/
theorem isSome_erase {contexts : Directory ThreadId Context} {stage : Stage} {who thread : ThreadId}
    {violation : Option Violation} (here : (stage.retire who violation).Unfinished thread)
    (there : stage.Unfinished thread → (contexts.get? thread).isSome = true) :
    ((contexts.erase who).get? thread).isSome = true := by
  obtain ⟨other, here⟩ := here.of_retire
  rw [Directory.get?_erase, if_neg other]
  exact there here

theorem Lands.isSome {name : String} {rest : List Code} {scene : Scene} {progress : Progress}
    {thread : ThreadId} (lands : Lands system name rest scene progress after)
    (here : after.kernel.scene.stage.Unfinished thread)
    (there : scene.stage.Unfinished thread → (system.contexts.get? thread).isSome = true) :
    (after.contexts.get? thread).isSome = true := by
  cases lands with
  | done shows contexts | switched shows contexts =>
    rw [shows.scene_eq] at here
    rw [contexts]
    exact isSome_set (there here)
  | finished away shows contexts =>
    rw [shows.scene_eq] at here
    rw [contexts]
    exact isSome_erase here there

/-! ## Steps -/

/-- Whoever is about to make a request makes it. -/
theorem AdvanceBy.of_calls {does : Prop → Scene → Request → Progress → Scene → Prop}
    {rules : Bool → Request → Bool} {request : Request} {rest : List Code}
    (advance : AdvanceBy does rules system after)
    (there : system.contexts.get? system.current =
      some (.ofCode (.operation (.request request) :: rest))) :
    ∃ progress scene, does (system.kernel.tables.queues.size < 4294967296)
      system.kernel.scene request
      progress scene ∧ Lands system request.name rest scene progress after := by
  cases advance with
  | calls there' outcome lands =>
    cases there.symm.trans there'
    exact ⟨_, _, outcome, lands⟩
  | resumes there' | spawns there' | ends _ there' => cases there.symm.trans there'
  | turns there' other =>
    cases there.symm.trans there'
    exact absurd rfl (other _ _)
  | dispatches driver there' | ticks driver there' =>
    rw [driver] at there
    cases there.symm.trans there'

/-- Requests that leave the clock alone do what is said of them. -/
theorem performs_timely :
    Performs (fun _ => True) (fun _ => True) Request.timely Request.Reach where
  ends kept shows placed := reach_ends (fun _ _ => trivial) shows placed kept
  stays kept reach := by
    rcases reach.ends with rfl | ⟨index, rfl⟩ <;> cases kept
  goes reach sane placed := reach.goes sane placed

namespace Timely

variable (timely : system.Timely)
include timely

/-- While a thread has the processor, anybody may be ready: the driver dispatches. -/
theorem dispatching (thread : system.current ≠ .idle) (ready : List ThreadId) :
    Schedule system.machine.clock ready system.duties := by
  obtain ⟨context, there, -, dispatching⟩ := timely.orderly.driver
  obtain ⟨name, rest, code⟩ := dispatching (by simp [timely.orderly.running_of_thread thread])
  have schedule := timely.schedule
  rw [duties_of_get? there, code] at schedule ⊢
  exact schedule.dispatch.1 ready

/-- The driver is in no call. -/
theorem thread_of_call {call : String × List Task} {code : List Code}
    (there : system.contexts.get? system.current = some { call := some call, code }) :
    system.current ≠ .idle := by
  intro idle
  obtain ⟨context, driver, free, -⟩ := timely.orderly.driver
  rw [idle, driver] at there
  cases there
  cases free

/-- Only the driver lets the clock tick. -/
theorem clock_of_thread (thread : system.current ≠ .idle) {code next : List Code} {clock : Nat}
    (there : system.contexts.get? system.current = some (.ofCode code))
    (turn : Turns system code next clock) : clock = system.machine.clock := by
  have kept := timely.orderly.kept _ _ there
  cases turn with
  | tick =>
    have driver := (kept_cons.mp kept).1
    simp [Code.keeps, thread] at driver
  | _ => rfl

/-- The driver has done what its script says, or a thread has done something: time stands still. -/
theorem proceeds (clock : after.machine.clock = system.machine.clock)
    (sleepers : after.kernel.sleepers = system.kernel.sleepers ∨
      ∃ tick, after.kernel.sleepers = system.kernel.sleepers.insert tick system.current)
    (driver : system.current = .idle → ∃ piece, system.duties = piece :: after.duties ∧
      piece.scripted = true)
    (thread : system.current ≠ .idle → after.duties = system.duties) :
    Schedule after.machine.clock after.machine.ready after.duties ∧ Beat system after := by
  have still : (∀ tick, system.Pending tick → after.Pending tick) → Beat system after :=
    fun pending => .still clock pending sleepers
  unfold Pending at still
  rw [clock]
  by_cases idle : system.current = .idle
  · obtain ⟨piece, code, scripted⟩ := driver idle
    have schedule := timely.schedule
    rw [code] at schedule still
    exact (@Schedule.proceeds _ _ _ _ [] schedule scripted (fun _ _ => nofun) _).imp_right still
  · rw [thread idle] at still ⊢
    exact ⟨timely.dispatching idle _, still fun _ => id⟩

/-- The driver turns to other code, and so may time. -/
theorem turns_beat {code next : List Code} {clock : Nat} (driver : system.current = .idle)
    (code_eq : system.duties = code) (turn : Turns system code next clock)
    (next_eq : after.duties = next)
    (shows : after.kernel.Shows
      { system.kernel.scene with stage := { system.kernel.scene.stage with clock } }) :
    Schedule after.machine.clock after.machine.ready after.duties ∧ Beat system after := by
  have now : after.machine.clock = clock := congrArg (·.clock) shows.stage
  have ready : after.machine.ready = system.machine.ready := congrArg (·.ready) shows.stage
  have sleepers : after.kernel.sleepers = system.kernel.sleepers :=
    congrArg (·.sleepers) shows.scene_eq
  subst code_eq next_eq
  obtain ⟨schedule, passage⟩ := timely.schedule.turns turn
  rw [now, ready]
  refine ⟨schedule, ?_⟩
  cases passage with
  | still alarms => exact .still now alarms (.inl sleepers)
  | ticks nobody handled alarm =>
    exact .ticks nobody (timely.orderly.running_of_idle driver) handled now alarm sleepers

/-- What a step does to the driver's schedule, to time and to sleepers. -/
theorem schedule_beat (advance : AdvanceBy Request.Reach Request.timely system after) :
    Schedule after.machine.clock after.machine.ready after.duties ∧ Beat system after := by
  have sane := timely.orderly.sane
  have placed := timely.orderly.settled
  cases advance with
  | @calls request rest progress scene after there reach lands =>
    have duties := lands.duties
    refine timely.proceeds (lands.clock.trans (reach.shift placed).clock) ?_ (fun idle => ?_)
      fun thread => by rw [duties, if_neg thread]
    · rw [lands.sleepers]
      rcases reach.sleepers with lets | ⟨ticks, rfl, naps⟩
      · exact .inl lets.sleepers
      · cases naps with
        | never => exact .inl rfl
        | sleeps runs =>
          have caller : system.current = _ := Scene.current_of_running runs
          exact .inr ⟨_, by rw [caller]; rfl⟩
    · rw [idle] at there
      rw [duties, if_pos idle, duties_of_get? there]
      exact ⟨_, rfl, rfl⟩
  | @resumes name owed rest progress scene after there resumed lands =>
    have away := timely.thread_of_call there
    have hushed := timely.hushed _ _ _ _ there
    have clock : scene.stage.clock = system.machine.clock :=
      @Resumed.keeps_stage _ _ _ _ sane placed
        (fun stage => stage.clock = system.machine.clock) _ resumed
        (fun _ shift same => shift.clock.trans same) rfl
    have sleepers := lands.sleepers.trans (resumed.letsSleep hushed).sleepers
    refine timely.proceeds (lands.clock.trans clock) (.inl sleepers)
      (fun idle => absurd idle away) ?_
    exact fun thread => by rw [lands.duties, if_neg thread]
  | @turns code next clock after there other kept shows contexts turn =>
    have duties := duties_set contexts rfl
    by_cases idle : system.current = .idle
    · rw [idle] at there
      rw [if_pos idle] at duties
      exact timely.turns_beat idle (duties_of_get? there) turn duties shows
    · rw [if_neg idle] at duties
      have now : after.machine.clock = clock := congrArg (·.clock) shows.stage
      exact timely.proceeds (now.trans (timely.clock_of_thread idle there turn))
        (.inl (congrArg (·.sleepers) shows.scene_eq)) (fun driver => absurd driver idle) fun _ =>
          duties
  | @spawns body rest after there shows contexts =>
    have new : (⟨system.kernel.scene.stage.nextThread⟩ : ThreadId) ≠ .idle := fun same =>
      Nat.ne_of_gt sane.numbered (congrArg ThreadId.number same)
    have duties := @duties_set system _ _ _ _ contexts (by rw [Directory.get?_set, if_neg new])
    refine timely.proceeds (congrArg (·.clock) shows.stage)
      (.inl (congrArg (·.sleepers) shows.scene_eq))
      (fun idle => ?_) fun thread => by rw [duties, if_neg thread]
    rw [idle] at there
    rw [duties, if_pos idle, duties_of_get? there]
    exact ⟨_, rfl, rfl⟩
  | @dispatches name rest thread ready after driver there first shows contexts =>
    have clock : after.machine.clock = system.machine.clock := congrArg (·.clock) shows.stage
    have code : system.duties = .dispatch name :: rest := duties_of_get? there
    have duties : after.duties = system.duties := by
      rw [code, duties_set contexts rfl, if_pos rfl]
      rfl
    have schedule := timely.schedule
    rw [code] at schedule
    refine ⟨?_, .still clock (fun tick pending => ?_) (.inl (congrArg (·.sleepers) shows.scene_eq))⟩
    · rw [clock, duties, code]
      exact schedule.dispatch.1 _
    · unfold Pending
      rwa [duties]
  | @ticks tick rest after driver there shows contexts =>
    have code : system.duties = .alarm tick :: rest := duties_of_get? there
    have schedule := timely.schedule
    rw [code] at schedule
    obtain ⟨rfl, later⟩ := schedule.alarm
    have clock : after.machine.clock = system.machine.clock :=
      (congrArg (·.clock) shows.stage).trans (Stage.clock_foldl_rouse _ _)
    refine ⟨?_, .handles ⟨driver, rest, code⟩ shows⟩
    rw [clock, duties_set contexts rfl, if_pos rfl]
    exact later _
  | ends thread there shows contexts =>
    exact timely.proceeds (congrArg (·.clock) shows.stage)
      (.inl (congrArg (·.sleepers) shows.scene_eq))
      (fun idle => absurd idle thread) fun _ => duties_erase contexts thread

/-- Where the run has come to its end, the driver has nothing left to do. -/
theorem duties_of_end (rests : system.step = none) : system.duties = [] := by
  unfold step at rests
  rw [timely.orderly.on] at rests
  simp only [Bool.false_eq_true, if_false] at rests
  split at rests
  · rename_i gone
    by_cases idle : system.current = .idle
    · obtain ⟨context, there, -⟩ := timely.orderly.driver
      rw [idle, there] at gone
      cases gone
    · have runs := timely.orderly.sane.running_status (timely.orderly.running_of_thread idle)
      have there := timely.manned _ ⟨_, runs, by simp⟩
      rw [gone] at there
      cases there
  · cases rests
  · cases rests
  · rename_i there
    split at rests
    · rename_i idle
      rw [idle] at there
      exact duties_of_get? there
    · cases rests

/-- Nobody owes the handling of a tick after a step. -/
theorem hushed_after (advance : AdvanceBy Request.Reach Request.timely system after)
    (who : ThreadId)
    (name : String) (owed : List Task) (code : List Code)
    (there : after.contexts.get? who = some { call := some (name, owed), code }) : Hushed owed := by
  -- Who was in a call before owes what was owed then.
  have old : system.contexts.get? who = some { call := some (name, owed), code } → Hushed owed :=
    timely.hushed who name owed code
  have off : ∀ {contexts : Directory ThreadId Context} {caller : ThreadId} {next : List Code},
      (contexts.set caller (.ofCode next)).get? who = some { call := some (name, owed), code } →
      contexts.get? who = some { call := some (name, owed), code } := by
    intro contexts caller next there
    rw [Directory.get?_set] at there
    split at there
    · cases there
    · exact there
  cases advance with
  | calls called reach lands =>
    by_cases acts : who = system.current
    · rw [acts] at there
      obtain ⟨rfl, -⟩ := lands.away there
      exact reach.owed
    · exact old (lands.others acts ▸ there)
  | resumes called resumed lands =>
    by_cases acts : who = system.current
    · rw [acts] at there
      obtain ⟨rfl, -⟩ := lands.away there
      exact (resumed.letsSleep (timely.hushed _ _ _ _ called)).owed owed rfl
    · exact old (lands.others acts ▸ there)
  | turns _ _ _ _ contexts | dispatches _ _ _ _ contexts | ticks _ _ _ contexts =>
    rw [contexts] at there
    exact old (off there)
  | spawns _ _ contexts =>
    rw [contexts] at there
    exact old (off (off there))
  | ends _ _ _ contexts =>
    rw [contexts, Directory.get?_erase] at there
    split at there
    · cases there
    · exact old there

/-- Every thread that has not ended has something to do after a step. -/
theorem manned_after (advance : AdvanceBy Request.Reach Request.timely system after)
    (thread : ThreadId)
    (here : after.kernel.scene.stage.Unfinished thread) :
    (after.contexts.get? thread).isSome = true := by
  have sane := timely.orderly.sane
  have placed := timely.orderly.settled
  have old := timely.manned thread
  cases advance with
  | calls there reach lands =>
    exact lands.isSome here fun here => old ((reach.shift placed).unfinished sane here)
  | resumes there resumed lands =>
    refine lands.isSome here fun here => old ?_
    refine @Resumed.keeps_stage _ _ _ _ sane placed (fun stage => stage.Unfinished thread →
      system.kernel.scene.stage.Unfinished thread) _ resumed ?_ id here
    exact fun sane shift before here => before (shift.unfinished sane here)
  | turns there other kept shows contexts =>
    rw [shows.scene_eq] at here
    rw [contexts]
    exact isSome_set (old here)
  | spawns there shows contexts =>
    rw [shows.scene_eq] at here
    rw [contexts]
    obtain ⟨status, known, on⟩ := here
    have known : (if _ then _ else _) = some status := known
    refine isSome_set ?_
    split at known
    · rename_i new
      rw [Directory.get?_set, if_pos new]
      rfl
    · exact isSome_set (old ⟨status, known, on⟩)
  | @dispatches name rest next ready after driver there first shows contexts =>
    rw [shows.scene_eq] at here
    rw [contexts]
    obtain ⟨status, known, on⟩ := here
    have waits : system.kernel.scene.stage.status next = some .ready := by
      simp [← sane.ready_iff, first]
    have known := (Stage.status_mark _ waits .running thread).symm.trans known
    refine isSome_set (old ?_)
    split at known
    · rename_i same
      exact ⟨.ready, same ▸ waits, by simp⟩
    · exact ⟨status, known, on⟩
  | @ticks tick rest after driver there shows contexts =>
    have shift : system.kernel.scene.stage.Shift (.done .nothing)
        (system.kernel.scene.wakeDue tick).stage := Scene.wakeDue_shift placed tick (by simp)
    rw [shows.scene_eq] at here
    rw [contexts]
    exact isSome_set (old (shift.unfinished sane here))
  | ends away there shows contexts =>
    rw [shows.scene_eq] at here
    rw [contexts]
    exact isSome_erase here old

/-- What an advancing step keeps. -/
theorem advances (advance : AdvanceBy Request.Reach Request.timely system after)
    (orderly : after.OrderlyBut (fun _ => True) Request.timely) : after.Timely where
  orderly := orderly
  sorted := by
    cases (timely.schedule_beat advance).2 with
    | still clock pending sleepers =>
      rcases sleepers with same | ⟨tick, same⟩
      · rw [same]
        exact timely.sorted
      · rw [same]
        exact timely.sorted.insert _ _
    | ticks nobody rests handled clock pending same =>
      rw [same]
      exact timely.sorted
    | handles handles shows =>
      rw [show after.kernel.sleepers = _ from congrArg (·.sleepers) shows.scene_eq]
      exact timely.sorted.drainDue _
  schedule := (timely.schedule_beat advance).1
  hushed := timely.hushed_after advance
  manned := timely.manned_after advance

/-- Whoever is ready stays so until it gets the processor. -/
theorem ready (advance : AdvanceBy Request.Reach Request.timely system after) {thread : ThreadId}
    (waits : system.machine.status? thread = some .ready) :
    after.machine.status? thread = some .ready ∨ after.current = thread := by
  have sane := timely.orderly.sane
  have placed := timely.orderly.settled
  have waits : system.kernel.scene.stage.status thread = some .ready := waits
  -- Whoever is ready does not have the processor, so the step is somebody else's.
  have off : thread ≠ system.current := by
    rintro rfl
    by_cases idle : system.current = .idle
    · rw [idle, sane.idle_unknown] at waits
      cases waits
    · cases waits.symm.trans (sane.running_status (timely.orderly.running_of_thread idle))
  have shown : ∀ {scene}, after.kernel.Shows scene → scene.stage.status thread = some .ready →
      after.machine.status? thread = some .ready ∨ after.current = thread := by
    intro scene shows waits
    refine .inl ?_
    show after.kernel.machine.stage.status thread = _
    rw [shows.stage]
    exact waits
  cases advance with
  | calls there reach lands =>
    exact .inl ((lands.status off).trans ((reach.shift placed).ready sane waits))
  | resumes there resumed lands =>
    refine .inl ((lands.status off).trans ?_)
    exact @Resumed.keeps_stage _ _ _ _ sane placed
      (fun stage => stage.status thread = some .ready) _ resumed
      (fun sane shift waits => shift.ready sane waits) waits
  | turns there other kept shows => exact shown shows waits
  | spawns there shows =>
    refine shown shows ?_
    show (if _ then _ else _) = _
    split
    · rfl
    · exact waits
  | @dispatches name rest next ready after driver there first shows =>
    by_cases same : next = thread
    · have runs : after.kernel.scene.stage.running = some next := congrArg (·.running) shows.stage
      have current : after.current = next := Scene.current_of_running runs
      exact .inr (current.trans same)
    · exact shown shows ((if_neg same : ite _ _ _ = _).trans waits)
  | @ticks tick rest after driver there shows =>
    have shift : system.kernel.scene.stage.Shift (.done .nothing)
        (system.kernel.scene.wakeDue tick).stage := Scene.wakeDue_shift placed tick (by simp)
    exact shown shows (shift.ready sane waits)
  | ends away there shows => exact shown shows ((if_neg off.symm : ite _ _ _ = _).trans waits)

/-- Whoever is on the alarm's list is asleep. -/
theorem asleep {sleeper : Sleeper} (listed : sleeper ∈ system.kernel.sleepers.sleepers) :
    system.machine.status? sleeper.thread = some .blocked := by
  have waits : sleeper.thread ∈ system.kernel.scene.waitlist .alarm := List.mem_map_of_mem listed
  exact timely.orderly.settled.asleep waits

/-- While somebody is ready, a step takes no time. -/
theorem clock_of_ready (beat : Beat system after) {thread : ThreadId}
    (waits : system.machine.status? thread = some .ready) :
    after.machine.clock = system.machine.clock := by
  cases beat with
  | still clock => exact clock
  | ticks nobody =>
    have here : thread ∈ system.machine.ready := (timely.orderly.sane.ready_iff thread).mpr waits
    simp [nobody] at here
  | handles handles shows =>
    exact (congrArg (·.clock) shows.stage).trans (Stage.clock_foldl_rouse _ _)

/-- What becomes of a sleeper in a step: it sleeps on, or its tick has come, the alarm handles that,
and it is ready. -/
theorem dozes (advance : AdvanceBy Request.Reach Request.timely system after) (later : after.Timely)
    {sleeper : Sleeper} (dozes : system.Dozes sleeper) : after.Dozes sleeper ∨
      system.Wakes sleeper after ∧ after.machine.clock = sleeper.wakeAt ∧
        after.machine.status? sleeper.thread = some .ready := by
  have placed := timely.orderly.settled
  have sleeps : sleeper ∈ after.kernel.sleepers.sleepers →
      after.machine.status? sleeper.thread = some .blocked := later.asleep
  cases (timely.schedule_beat advance).2 with
  | still clock pending sleepers =>
    have listed : sleeper ∈ after.kernel.sleepers.sleepers := by
      rcases sleepers with same | ⟨tick, same⟩
      · rw [same]
        exact dozes.listed
      · rw [same]
        exact SleepQueue.mem_place.mpr (.inr dozes.listed)
    refine .inl ⟨listed, sleeps listed, ?_⟩
    rw [clock]
    exact dozes.early.imp_right fun ⟨now, waits⟩ => ⟨now, pending _ waits⟩
  | ticks nobody rests handled clock pending same =>
    have listed : sleeper ∈ after.kernel.sleepers.sleepers := by
      rw [same]
      exact dozes.listed
    -- the clock does not pass a tick that has not been handled
    have early := dozes.early.resolve_right fun ⟨_, waits⟩ => handled _ waits
    refine .inl ⟨listed, sleeps listed, ?_⟩
    rw [clock]
    rcases Nat.lt_or_eq_of_le early with before | now
    · exact .inl before
    · exact .inr ⟨now, now ▸ pending⟩
  | handles handles shows =>
    have sleepers :
      after.kernel.sleepers = (system.kernel.sleepers.drainDue system.machine.clock).2 :=
      congrArg (·.sleepers) shows.scene_eq
    have clock : after.machine.clock = system.machine.clock :=
      (congrArg (·.clock) shows.stage).trans (Stage.clock_foldl_rouse _ _)
    rcases dozes.early with before | ⟨now, -⟩
    · have listed : sleeper ∈ after.kernel.sleepers.sleepers := by
        rw [sleepers]
        exact (timely.sorted.mem_drainDue_iff dozes.listed).mpr before
      exact .inl ⟨listed, sleeps listed, .inl (clock ▸ before)⟩
    · have part := placed.part (Scene.wakeDue_part _ system.machine.clock)
      have woken : sleeper.thread ∈ system.due :=
        List.mem_map_of_mem ((timely.sorted.mem_due_iff dozes.listed).mpr (Nat.le_of_eq now.symm))
      refine .inr ⟨⟨handles, now, ?_, sleepers, woken⟩, clock.trans now, ?_⟩
      · exact (congrArg (·.ready) shows.stage).trans (Stage.ready_foldl_rouse _ _)
      · show after.kernel.machine.stage.status _ = _
        rw [shows.stage]
        exact (Stage.status_foldl_rouse part.1 part.2 _).trans (if_pos woken)

/-- The step that wakes one sleeper of a tick leaves no other of that tick asleep. -/
theorem wakes_all {sleeper other : Sleeper} (wakes : system.Wakes sleeper after)
    (dozes : system.Dozes other) (same : other.wakeAt = sleeper.wakeAt) : ¬ after.Dozes other := by
  intro later
  have listed := later.listed
  rw [wakes.left, timely.sorted.mem_drainDue_iff dozes.listed, same, wakes.clock] at listed
  exact Nat.lt_irrefl _ listed

/-- Of two sleepers of one tick the one that came first is woken first. -/
theorem wakes_in_order {sleeper other : Sleeper} (first : system.Dozes sleeper)
    (second : system.Dozes other) (order : sleeper.arrival < other.arrival)
    (same : other.wakeAt = sleeper.wakeAt) (now : system.machine.clock = sleeper.wakeAt) :
    [sleeper.thread, other.thread].Sublist system.due :=
  timely.sorted.woken_in_order first.listed second.listed (.inr ⟨same.symm, order⟩)
    (Nat.le_of_eq now.symm) (Nat.le_of_eq (same.trans now.symm))

end Timely

end Simulation

end Turnstile
