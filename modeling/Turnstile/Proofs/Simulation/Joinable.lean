import Turnstile.Proofs.Kernel.Exiting
import Turnstile.Proofs.Kernel.Points
import Turnstile.Proofs.Simulation.Contexts
import Turnstile.Proofs.Tables.Parting

/-!
# Joining and exiting, step by step

What a step of an orderly system does to join points and to those who sleep in a call of `join`.

* **Points**: a step leaves an open point alone unless somebody joins it or its target exits through
  it (`Housed.attends`), so that one thread at most ever waits on it (`Housed.joinable`).
* **Sleepers**: whoever is awake and has not the processor stays awake (`Orderly.awake`).
* **Exits**: the target of a point that calls `exit` ends in that step (`Housed.exits`). Whoever
  waits is readied, the queue is closed, and nobody but the target loses anything (`Exited`).
-/

namespace Turnstile

/-! ## Who falls asleep -/

/-- A call puts nobody to sleep but its caller. -/
theorem Stage.Shift.awake {stage after : Stage} {progress : Progress}
    (shift : stage.Shift progress after) (sane : stage.Sane) {thread : ThreadId}
    (other : stage.running ≠ some thread) (awake : stage.status thread ≠ some .blocked) :
    after.status thread ≠ some .blocked := by
  rcases shift.status_cases sane thread with same | ⟨asleep | runs, -⟩
  · rwa [same]
  · exact absurd asleep awake
  · exact absurd ((sane.running_iff thread).mpr runs) other

theorem Resumed.awake {scene after : Scene} {owed : List Task} {progress : Progress}
    (resumed : Resumed scene owed progress after) (sane : scene.stage.Sane)
    (settled : scene.Settled)
    {thread : ThreadId} (other : scene.stage.running ≠ some thread)
    (awake : scene.stage.status thread ≠ some .blocked) :
    after.stage.status thread ≠ some .blocked := by
  induction resumed with
  | stop => exact awake
  | @next scene mid after task rest reply progress first others ih =>
    have shift := first.shift settled
    have goes := first.goes sane settled
    refine ih goes.sane goes.settled ?_ (shift.awake sane other awake)
    rcases shift.running with ⟨-, same⟩ | ⟨⟨_, _, switched, -⟩, -⟩
    · rwa [same]
    · cases switched
  | away first => exact (first.shift settled).awake sane other awake

namespace Simulation

variable {rules : Bool → Request → Bool} {system after : Simulation}

theorem Lands.awake {name : String} {rest : List Code} {scene : Scene} {progress : Progress}
    (lands : Lands system name rest scene progress after) {thread : ThreadId}
    (awake : scene.stage.status thread ≠ some .blocked) :
    after.machine.status? thread ≠ some .blocked := by
  show after.kernel.machine.stage.status thread ≠ _
  cases lands with
  | done shows | switched shows =>
    rw [shows.stage]
    exact awake
  | finished away shows =>
    rw [shows.stage]
    show (if system.current = thread then _ else _) ≠ _
    split
    · cases scene.stage.status thread <;> simp
    · exact awake

/-- Whoever is awake and has not the processor stays awake. -/
theorem Orderly.awake (orderly : system.Orderly rules) (advance : Advance rules system after)
    {thread : ThreadId} (other : thread ≠ system.current)
    (awake : system.machine.status? thread ≠ some .blocked) :
    after.machine.status? thread ≠ some .blocked := by
  have sane := orderly.sane
  have settled := orderly.settled
  have idle : system.kernel.scene.stage.running ≠ some thread := fun runs =>
    other (Scene.current_of_running runs).symm
  have awake : system.kernel.scene.stage.status thread ≠ some .blocked := awake
  cases advance with
  | calls there outcome lands => exact lands.awake ((outcome.shift settled).awake sane idle awake)
  | resumes there resumed lands => exact lands.awake (resumed.awake sane settled idle awake)
  | turns there plain kept shows contexts =>
    show after.kernel.machine.stage.status thread ≠ _
    rwa [shows.stage]
  | spawns there shows contexts =>
    show after.kernel.machine.stage.status thread ≠ _
    rw [shows.stage]
    exact fun asleep => awake ((sane.status_spawn_iff (by decide) thread).mp asleep)
  | dispatches driver there first shows contexts =>
    show after.kernel.machine.stage.status thread ≠ _
    rw [shows.stage]
    exact fun asleep =>
      awake ((sane.status_dispatch_iff first (by decide) (by decide) thread).mp asleep)
  | @ticks tick rest after driver there shows contexts =>
    have shift : system.kernel.scene.stage.Shift (.done .nothing)
        (system.kernel.scene.wakeDue tick).stage := Scene.wakeDue_shift settled tick (by simp)
    show after.kernel.machine.stage.status thread ≠ _
    rw [shows.stage]
    exact shift.awake sane idle awake
  | ends away there shows contexts =>
    have runs := orderly.running_of_thread away
    show after.kernel.machine.stage.status thread ≠ _
    rw [shows.stage]
    exact fun asleep =>
      awake ((sane.status_retire_iff runs none (by decide) (by decide) thread).mp asleep)

/-! ## Join points -/

namespace Housed

variable (housed : system.Housed) (orderly : system.Orderly rules)
  (advance : Advance rules system after)
  (room : system.kernel.tables.queues.size < 4294967296)
include housed orderly advance room

/-- What a step does to an open join point. -/
theorem attends {index : Nat} {point : Join} (made : system.kernel.joins[index]? = some point)
    (on : point.done = false) : Scene.Attends (system.Calls system.current (.join index))
      (system.Calls system.current (.joinExit index)) index point system.kernel.scene
      after.kernel.scene := by
  have apart := housed.apart
  rcases orderly.advance_cases advance with
    ⟨request, rest, progress, scene, there, outcome, lands⟩ |
    ⟨name, owed, rest, progress, scene, there, resumed, lands⟩ | passive
  · have attends := outcome.attends apart made on room orderly.sane orderly.settled
      fun place _ => housed.first orderly place
    obtain ⟨stage, same⟩ := lands.scene_eq
    rw [same]
    refine Scene.Attends.restage ?_ stage _
    cases attends with
    | spared there spares => exact .spared there spares
    | joined joins first there' waiters donates =>
      exact .joined ⟨rfl, rest, joins ▸ there⟩ first there' waiters donates
    | exited exits target there' => exact .exited ⟨rfl, rest, exits ▸ there⟩ target there'
  · obtain ⟨stage, same⟩ := lands.scene_eq
    have named : ∀ lock, .acquire lock ∈ owed → lock ∈ system.kernel.scene.locks := by
      intro lock takes
      rcases housed.owes _ _ _ _ there with plain | ⟨other, made, regains⟩
      · exact absurd takes plain.named
      · exact regains.named takes ▸ made
    obtain ⟨joins, spares⟩ := resumed.spares apart made on named
    rw [same]
    exact Scene.Attends.restage (.spared (joins ▸ made) spares) stage _
  · obtain ⟨stage, sleepers, same⟩ := passive.scene_eq
    rw [same]
    exact .spared made (.of_queue? rfl)

/-- One thread at most ever waits on an open join point. -/
theorem joinable (joinable : system.kernel.scene.Joinable) : after.kernel.scene.Joinable := by
  refine joinable.of_attends (fun index point made on =>
    housed.attends orderly advance room made on) fun index point there on => ?_
  rcases orderly.advance_cases advance with ⟨request, rest, progress, scene, -, outcome, lands⟩ |
    ⟨name, owed, rest, progress, scene, -, resumed, lands⟩ | passive
  · obtain ⟨stage, same⟩ := lands.scene_eq
    rw [same] at there ⊢
    exact outcome.origin room there on
  · obtain ⟨stage, same⟩ := lands.scene_eq
    rw [same] at there
    have there : scene.joins[index]? = some point := there
    rw [resumed.made.2] at there
    exact .inl ⟨point, there, on⟩
  · obtain ⟨stage, sleepers, same⟩ := passive.scene_eq
    rw [same] at there
    exact .inl ⟨point, there, on⟩

end Housed

/-- The target of a point that is closed has exited through it, now or before. -/
theorem Orderly.closed (orderly : system.Orderly rules) (advance : Advance rules system after)
    {index : Nat} {point : Join} (there : after.kernel.joins[index]? = some point)
    (past : point.done = true) :
    (∃ old, system.kernel.joins[index]? = some old ∧ old.done = true ∧ old.target = point.target) ∨
      system.Calls point.target (.joinExit index) := by
  have there : after.kernel.scene.joins[index]? = some point := there
  rcases orderly.advance_cases advance with
    ⟨request, rest, progress, scene, calls, outcome, lands⟩ |
    ⟨name, owed, rest, progress, scene, -, resumed, lands⟩ | passive
  · obtain ⟨stage, same⟩ := lands.scene_eq
    rw [same] at there
    rcases outcome.closed there past with before | ⟨rfl, -, target⟩
    · exact .inl before
    · have caller : system.current = point.target := target.symm
      exact .inr ⟨caller, rest, caller ▸ calls⟩
  · obtain ⟨stage, same⟩ := lands.scene_eq
    rw [same] at there
    have there : scene.joins[index]? = some point := there
    rw [resumed.made.2] at there
    exact .inl ⟨point, there, past, rfl⟩
  · obtain ⟨stage, sleepers, same⟩ := passive.scene_eq
    rw [same] at there
    exact .inl ⟨point, there, past, rfl⟩

/-! ## Exits -/

/-- The target of a join point has exited through it, and nothing has gone wrong. Whoever
waited, `joiner`, is ready and owns nothing more; the queue is closed; and the target has
no record any more. -/
structure Exited (system : Simulation) (point : Join) (joiner : Option ThreadId)
    (after : Simulation) :
    Prop where
  calm : ∀ violation, ¬ after.Raised violation
  sound : after.kernel.tables.Sound
  ended : after.machine.status? point.target = some .finished
  size : after.kernel.tables.queues.size + 1 = system.kernel.tables.queues.size
  unknown : after.kernel.tables.knows point.target = false
  waited : system.kernel.scene.ledger.waiters point.queue = joiner.toList
  ledger : after.kernel.scene.ledger =
    system.kernel.scene.ledger.part point.queue joiner point.target
  ready : after.machine.ready = system.machine.ready ++ joiner.toList
  woken : ∀ thread, joiner = some thread → after.machine.status? thread = some .ready

/-- The driver does not exit. -/
theorem Orderly.exits_thread (orderly : system.Orderly rules)
    (legal : ∀ driver call, rules driver call = true → call.orderly driver = true) {index : Nat}
    (calls : system.Calls system.current (.joinExit index)) : system.current ≠ .idle := by
  intro idle
  obtain ⟨-, rest, there⟩ := calls
  have keeps := legal _ _ (kept_cons.mp (orderly.kept _ _ there)).1
  simp [Request.orderly, idle] at keeps

/-- A call of `exit` that goes well ends its thread. -/
theorem step_of_exit {index : Nat} {rest : List Code} {kernel : Kernel Uniprocessor}
    (on : system.ended = false) (there : system.contexts.get? system.current =
      some (.ofCode (.operation (.request (.joinExit index)) :: rest)))
    (thread : system.current ≠ .idle) (ok : Join.exit index system.kernel = .ok .finished kernel) :
    system.step = some (({ system with kernel } : Simulation).endThread system.current none) := by
  rw [step_of_calls on there]
  unfold carryOn
  rw [show (Request.joinExit index).perform = Join.exit index from rfl, ok]
  dsimp only
  rw [if_neg thread]

/-- Whoever calls `exit` on its own join point exits, in one step. -/
theorem Housed.exits (housed : system.Housed) (orderly : system.Orderly rules)
    (legal : ∀ driver call, rules driver call = true → call.orderly driver = true)
    (joinable : system.kernel.scene.Joinable) {index : Nat} {point : Join}
    (calls : system.Calls system.current (.joinExit index))
    (made : system.kernel.joins[index]? = some point) (target : system.current = point.target) :
    ∃ after joiner, system.step = some after ∧ Exited system point joiner after := by
  have sane := orderly.sane
  have settled := orderly.settled
  have thread := orderly.exits_thread legal calls
  have on := housed.first orderly index point made target
  have shows : system.kernel.Shows system.kernel.scene := ⟨orderly.sound, rfl⟩
  obtain ⟨queue, live⟩ := Option.isSome_iff_exists.mp (housed.apart.join_live index point made on)
  have few := joinable.single index point made on
  rw [Ledger.waiters_of_queue? live] at few
  obtain ⟨kernel, ok, size, unknown⟩ := Join.exit_ok shows sane settled made target live few
  -- That the exit does what it should and leaves no violation is known of every exit that succeeds.
  have ends : Ends (fun _ => True) (Join.exit index) system.kernel _ :=
    joinExit_ends (fun _ _ => trivial) shows settled index
  unfold Ends at ends
  rw [ok] at ends
  obtain ⟨fault, scene, shows', -, exits⟩ := ends
  have outcome : (Request.joinExit index).Outcome (system.kernel.tables.queues.size < 4294967296)
    system.kernel.scene .finished scene := .joinExit exits
  have goes := outcome.goes sane settled
  obtain ⟨made', -, ⟨queue', joiner, live', waits, nobody, rfl⟩, -, -⟩ := exits
  cases made.symm.trans made'
  cases live.symm.trans live'
  have waited : queue.waiting = joiner.toList := waiting_eq_toList few waits nobody
  obtain ⟨-, rest, there⟩ := calls
  let after : Simulation := ({ system with kernel } : Simulation).endThread system.current none
  have step : system.step = some after := step_of_exit orderly.on there thread ok
  have shows : after.kernel.Shows _ := shows'.machine
    ((Uniprocessor.stage_retire kernel.machine system.current none).trans (by rw [shows'.stage]))
  have lands : Lands system (Request.joinExit index).name rest _ .finished after :=
    .finished thread shows rfl
  have calm : ∀ violation, ¬ after.Raised violation := by
    refine calm_of orderly.calm ?_ fun entry he _ _ => he
    show kernel.machine.fault.or none = _
    rw [Option.or_none]
    exact fault
  have next := orderly.advances ⟨.calls there outcome lands, orderly.on, calm⟩
  have ready : after.machine.ready = system.machine.ready ++ joiner.toList := by
    have same : after.machine.ready = _ := congrArg (·.ready) shows.stage
    rw [same]
    cases joiner with
    | none => exact (List.append_nil _).symm
    | some joiner => rfl
  refine ⟨after, joiner, step, calm, shows.sound, ?_, size, unknown, ?_, ?_, ready, ?_⟩
  · exact (lands.finished_iff orderly goes _).mpr (.inl ⟨rfl, target⟩)
  · rw [Ledger.waiters_of_queue? live, waited]
  · rw [shows.scene_eq, ← target]
    rfl
  · rintro woken rfl
    refine (next.sane.ready_iff woken).mp ?_
    show woken ∈ after.machine.ready
    rw [ready]
    exact List.mem_append_right _ (List.mem_singleton.mpr rfl)

/-- Whoever calls `exit` on a join point that is not its own is refused, and nobody else
fails for it. -/
theorem Orderly.exit_refused (orderly : system.Orderly rules) {index : Nat}
    (calls : system.Calls system.current (.joinExit index))
    (foreign : ∀ point : Join, system.kernel.joins[index]? = some point →
      system.current ≠ point.target)
    (step : system.step = some after) (id : QueueId) (waiters : Nat) :
    ¬ after.Raised (.closesWaitedOn id waiters) := by
  obtain ⟨-, rest, there⟩ := calls
  obtain ⟨violation, refused, other⟩ := Join.exit_refused foreign
  have next : system.step =
      some (system.fail system.current (Request.joinExit index).name violation) := by
    rw [step_of_calls orderly.on there]
    unfold carryOn
    rw [show (Request.joinExit index).perform = Join.exit index from rfl, refused]
  cases next.symm.trans step
  have spoilt : Spoilt (· = violation) (system.fail system.current (Request.joinExit index).name
    violation) := fail_spoilt orderly rfl rfl
  exact fun raised => other id waiters (spoilt.allows _ raised).symm

namespace Exited

variable {point : Join} {joiner : Option ThreadId} {queue : Queue} {id : QueueId}
  {thread : ThreadId}
  (exited : Exited system point joiner after)
  (live : system.kernel.scene.ledger.queue? point.queue = some queue)
include exited

theorem stale : after.kernel.tables.queues.get? point.queue = none := by
  show after.kernel.scene.ledger.queue? point.queue = none
  rw [exited.ledger]
  exact Ledger.queue?_part _ _ _ _

theorem not_waits : point.target ∉ after.kernel.scene.ledger.waiters id := by
  rw [exited.ledger, Ledger.waiters_part]
  split <;> simp

include live

theorem not_owns : after.kernel.scene.ledger.owner? id ≠ some point.target := by
  rw [exited.ledger, Ledger.owner?_part live]
  split
  · exact nofun
  · rename_i kept
    exact fun owns => kept (.inr owns)

theorem owned (owns : after.kernel.scene.ledger.owner? id = some thread) :
    system.kernel.scene.ledger.owner? id = some thread := by
  rw [exited.ledger, Ledger.owner?_part live] at owns
  split at owns
  · cases owns
  · exact owns

/-- Whoever waited weighs what it did, and the target has no part in it. -/
theorem weighs (orderly : system.Orderly rules) (target : system.current = point.target)
    (waited : joiner = some thread) : ∃ donors weight,
      system.kernel.tables.WeighsWith thread donors weight ∧
        after.kernel.tables.WeighsWith thread donors weight ∧ point.target ∉ donors := by
  have sound := orderly.sound
  have bare : system.kernel.scene.ledger.bare = system.kernel.tables.ledger.bare := rfl
  have linked := sound.linked.of_bare bare
  have waits : system.kernel.scene.ledger.waiters point.queue = [thread] := by
    rw [exited.waited, waited]
    rfl
  have here : thread ∈ system.kernel.scene.ledger.waiters point.queue := by simp [waits]
  have awake := Scene.current_awake orderly.sane
  have ne : thread ≠ point.target := by
    rintro rfl
    rw [← target] at here
    exact awake (orderly.settled.asleep_of_waiters here)
  have idle : ∀ other, ¬ system.kernel.scene.ledger.Lends point.target other := by
    intro other lends
    obtain ⟨place, -, waits, -⟩ := Ledger.lends_iff.mp lends
    rw [← target] at waits
    exact awake (orderly.settled.asleep_of_waiters waits)
  have alone : ¬ Relation.ReflTransGen system.kernel.scene.ledger.Lends point.target thread := by
    intro path
    rcases Relation.ReflTransGen.cases_head path with same | ⟨other, lends, -⟩
    · exact ne same.symm
    · exact idle other lends
  have same : after.kernel.tables.ledger.bare =
    system.kernel.scene.ledger.part point.queue joiner point.target := exited.ledger
  have donors : ∀ donor, Relation.ReflTransGen after.kernel.tables.ledger.Lends donor thread ↔
      Relation.ReflTransGen system.kernel.tables.ledger.Lends donor thread := by
    intro donor
    have edges : after.kernel.tables.ledger.Lends = after.kernel.scene.ledger.Lends := rfl
    rw [edges, exited.ledger]
    exact Ledger.donors_part live linked sound.acyclic waits idle ne
  have bases : ∀ donor, Relation.ReflTransGen system.kernel.tables.ledger.Lends donor thread →
      (after.kernel.tables.state donor).base = (system.kernel.tables.state donor).base := by
    intro donor path
    have base := congrArg (fun ledger => (ledger.record donor).base) same
    exact base.trans (Ledger.base_part fun here => alone (here ▸ path))
  obtain ⟨donors, weight, before, later⟩ := sound.weighs_same exited.sound
    ((congrArg (·.policy) same).trans Ledger.policy_part) donors bases
  exact ⟨donors, weight, before, later, fun donates => alone ((before.donor_iff _).mp donates)⟩

end Exited

end Simulation

end Turnstile
