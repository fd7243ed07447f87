import Turnstile.Proofs.Kernel.Regaining
import Turnstile.Proofs.Simulation.Orderly

/-!
# Where calls stand with the locks

Calls that have switched away are linked to the queues that they wait on. A system is housed
(`Simulation.Housed`) if handles of locks and open join points reach queues of their own, whoever
has exited through a join point has ended, and every call that has switched away either has nothing
to do with locks or is to hold one when it returns.

As long as there is room for new handles a step meets locks as `Housed.meets` says and leaves the
system housed (`Housed.advances`). Then whoever is woken to look at a lock owns it, so that no run
is spoilt by a thread that does not (`housed_or_spoilt`).
-/

namespace Turnstile

namespace Scene

/-- Whoever has exited through a join point has ended. -/
def Departed (scene : Scene) : Prop :=
  ∀ (index : Nat) (point : Join), scene.joins[index]? = some point → point.done = true →
    scene.stage.status point.target = some .finished

variable {scene mid after : Scene} {gives : Lock → Prop} {drops : Prop}

/-- Where threads stand has no part in handles, and neither has the alarm. -/
theorem Apart.restage (apart : scene.Apart) (stage : Stage) (sleepers : SleepQueue) :
    Apart { scene with stage, sleepers } :=
  apart.congr (fun _ => rfl) rfl (fun _ point there => ⟨point, there, rfl, rfl⟩)
    fun _ condition there => ⟨condition, there, rfl⟩

theorem Meets.restage (meets : Meets gives drops scene mid) (stage : Stage)
    (sleepers : SleepQueue) :
    Meets gives drops scene { mid with stage, sleepers } :=
  ⟨meets.apart.restage stage sleepers, meets.treats, meets.fresh, meets.locks, meets.conditions⟩

theorem Meets.mem_locks (meets : Meets gives drops scene after) {lock : Lock}
    (made : lock ∈ scene.locks) : lock ∈ after.locks := by
  obtain ⟨index, there⟩ := List.mem_iff_getElem?.mp made
  exact List.mem_of_getElem? (meets.locks index lock there)

/-- A condition is bound to a lock that was made. -/
theorem Apart.bound (apart : scene.Apart) {index : Nat} {lock : Lock}
    (bound : (scene.conditions[index]?).map (·.lock) = some lock) : lock ∈ scene.locks := by
  obtain ⟨condition, there, rfl⟩ := Option.map_eq_some_iff.mp bound
  exact apart.lock_made index condition there

theorem Apart.waitedUnder (apart : scene.Apart) {request : Request} {lock : Lock}
    (waits : request.waitedUnder scene = some lock) : lock ∈ scene.locks := by
  unfold Request.waitedUnder at waits
  split at waits
  · exact apart.bound waits
  · split at waits
    · exact apart.bound waits
    · cases waits
  · cases waits

theorem Apart.released (apart : scene.Apart) {request : Request} {lock : Lock}
    (gives : request.released scene = some lock) : lock ∈ scene.locks := by
  unfold Request.released at gives
  split at gives
  · exact List.mem_of_getElem? gives
  · exact apart.waitedUnder gives

theorem Apart.obtained (apart : scene.Apart) {request : Request} {lock : Lock}
    (obtains : request.obtained scene = some lock) : lock ∈ scene.locks := by
  unfold Request.obtained at obtains
  split at obtains
  · exact List.mem_of_getElem? obtains
  · exact apart.waitedUnder obtains

end Scene

namespace Simulation

variable {rules : Bool → Request → Bool} {allowed : Violation → Prop} {system after : Simulation}

/-! ## Who makes which call -/

/-- The thread has the processor and is about to make the request. -/
def Calls (system : Simulation) (thread : ThreadId) (request : Request) : Prop :=
  system.current = thread ∧
    ∃ rest, system.contexts.get? thread = some (.ofCode (.operation (.request request) :: rest))

/-- The thread is in a call that will hold the lock when it returns. -/
def Awaits (system : Simulation) (thread : ThreadId) (lock : Lock) : Prop :=
  ∃ name owed code, system.contexts.get? thread = some { call := some (name, owed), code } ∧
    system.kernel.scene.Regains thread lock owed

/-- What is about to happen may give the lock up. -/
def Gives (system : Simulation) (lock : Lock) : Prop :=
  (∃ request, system.Calls system.current request ∧
    request.released system.kernel.scene = some lock) ∨ system.Awaits system.current lock

/-- What is about to happen drops the record of whoever has the processor. -/
def Leaves (system : Simulation) : Prop :=
  ∃ request, system.Calls system.current request ∧ request.leaves = true

theorem Calls.unique {thread other : ThreadId} {request request' : Request}
    (calls : system.Calls thread request) (calls' : system.Calls other request') :
    request = request' := by
  obtain ⟨rfl, rest, there⟩ := calls
  obtain ⟨rfl, rest', there'⟩ := calls'
  cases there.symm.trans there'
  rfl

/-! ## Where a call leaves the system -/

section

variable {name : String} {rest : List Code} {scene : Scene} {progress : Progress}
  (lands : Lands system name rest scene progress after)
include lands

theorem Lands.scene_eq : ∃ stage, after.kernel.scene = { scene with stage } := by
  cases lands with
  | done shows | switched shows | finished _ shows => exact ⟨_, shows.scene_eq⟩

theorem Lands.others {who : ThreadId} (ne : who ≠ system.current) :
    after.contexts.get? who = system.contexts.get? who := by
  cases lands with
  | done shows contexts | switched shows contexts =>
    rw [contexts, Directory.get?_set, if_neg ne.symm]
  | finished thread shows contexts => rw [contexts, Directory.get?_erase, if_neg ne.symm]

/-- If the context is in a call afterwards, it has switched away in this one. -/
theorem Lands.away {name' : String} {owed : List Task} {code : List Code}
    (there : after.contexts.get? system.current = some { call := some (name', owed), code }) :
    progress = .switched owed ∧ after.kernel.scene = scene := by
  cases lands with
  | done shows contexts =>
    rw [contexts, Directory.get?_set, if_pos rfl] at there
    cases there
  | switched shows contexts =>
    rw [contexts, Directory.get?_set, if_pos rfl] at there
    cases there
    exact ⟨rfl, shows.scene_eq⟩
  | finished thread shows contexts =>
    rw [contexts, Directory.get?_erase, if_pos rfl] at there
    cases there

/-- If the context is between calls afterwards, this one is done. -/
theorem Lands.back {code : List Code}
    (there : after.contexts.get? system.current = some (.ofCode code)) :
    (∃ reply, progress = .done reply) ∧ after.kernel.scene = scene := by
  cases lands with
  | done shows contexts => exact ⟨⟨_, rfl⟩, shows.scene_eq⟩
  | switched shows contexts =>
    rw [contexts, Directory.get?_set, if_pos rfl] at there
    cases there
  | finished thread shows contexts =>
    rw [contexts, Directory.get?_erase, if_pos rfl] at there
    cases there

/-- A call ends its caller or nobody. -/
theorem Lands.finished_iff (orderly : system.Orderly rules)
    (goes : system.kernel.scene.Goes progress scene) (thread : ThreadId) :
    after.machine.status? thread = some .finished ↔
      (progress = .finished ∧ system.current = thread) ∨
        system.machine.status? thread = some .finished := by
  show after.kernel.machine.stage.status thread = _ ↔ _ ∨
    system.kernel.scene.stage.status thread = some .finished
  rw [← goes.finished_iff]
  cases lands with
  | done shows | switched shows =>
    rw [shows.stage]
    simp
  | finished away shows =>
    have runs : scene.stage.running = some system.current := by
      rcases goes.running with ⟨-, same⟩ | ⟨⟨_, _, switched, -⟩, -⟩
      · exact same.trans (orderly.running_of_thread away)
      · cases switched
    rw [shows.stage]
    exact (goes.sane.finished_retire runs none thread).trans (by simp)

end

/-! ## Steps that are no part of a call -/

/-- No queue, lock, condition or join point changes, and nobody gets into a call. -/
structure Passive (system after : Simulation) : Prop where
  between : ∃ code, system.contexts.get? system.current = some (.ofCode code) ∧
    ∀ request rest, code ≠ .operation (.request request) :: rest
  scene_eq : ∃ stage sleepers,
    after.kernel.scene = { system.kernel.scene with stage, sleepers }
  contexts : ∀ who call code, after.contexts.get? who = some { call := some call, code } →
    who ≠ system.current ∧ system.contexts.get? who = some { call := some call, code }
  finished : ∀ thread, system.machine.status? thread = some .finished →
    after.machine.status? thread = some .finished
  ended : ∀ thread, after.machine.status? thread = some .finished →
    system.current = thread ∨ system.machine.status? thread = some .finished

/-- A context that is given other code is in no call. -/
theorem contexts_set {contexts : Directory ThreadId Context} {current who : ThreadId}
    {code next : List Code} {call : String × List Task}
    (there : (contexts.set current (.ofCode next)).get? who = some { call := some call, code }) :
    who ≠ current ∧ contexts.get? who = some { call := some call, code } := by
  rw [Directory.get?_set] at there
  split at there
  · cases there
  · rename_i ne
    exact ⟨Ne.symm ne, there⟩

theorem contexts_erase {contexts : Directory ThreadId Context} {current who : ThreadId}
    {context : Context} (there : (contexts.erase current).get? who = some context) :
    who ≠ current ∧ contexts.get? who = some context := by
  rw [Directory.get?_erase] at there
  split at there
  · cases there
  · rename_i ne
    exact ⟨Ne.symm ne, there⟩

theorem Passive.of_shows {code : List Code} {stage : Stage} {sleepers : SleepQueue}
    (there : system.contexts.get? system.current = some (.ofCode code))
    (other : ∀ request rest, code ≠ .operation (.request request) :: rest)
    (shows : after.kernel.Shows { system.kernel.scene with stage, sleepers })
    (contexts : ∀ who call code, after.contexts.get? who = some { call := some call, code } →
      who ≠ system.current ∧ system.contexts.get? who = some { call := some call, code })
    (finished : ∀ thread, system.kernel.scene.stage.status thread = some .finished →
      stage.status thread = some .finished)
    (ended : ∀ thread, stage.status thread = some .finished → system.current = thread ∨
      system.kernel.scene.stage.status thread = some .finished) : Passive system after := by
  have same : stage.status = after.machine.status? := (congrArg (·.status) shows.stage).symm
  rw [same] at finished ended
  exact ⟨⟨code, there, other⟩, ⟨stage, sleepers, shows.scene_eq⟩, contexts, finished, ended⟩

/-- A step makes a call, goes on with one, or is passive. -/
theorem Orderly.advance_cases (orderly : system.Orderly rules)
    (advance : Advance rules system after) :
    (∃ request rest progress scene, system.contexts.get? system.current =
        some (.ofCode (.operation (.request request) :: rest)) ∧
      request.Outcome (system.kernel.tables.queues.size < 4294967296) system.kernel.scene progress
        scene ∧ Lands system request.name rest scene progress after) ∨
    (∃ name owed rest progress scene, system.contexts.get? system.current =
        some { call := some (name, owed), code := rest } ∧
      Resumed system.kernel.scene owed progress scene ∧
        Lands system name rest scene progress after) ∨ Passive system after := by
  have sane := orderly.sane
  cases advance with
  | calls there outcome lands => exact .inl ⟨_, _, _, _, there, outcome, lands⟩
  | resumes there resumed lands => exact .inr (.inl ⟨_, _, _, _, _, there, resumed, lands⟩)
  | turns there other kept shows contexts =>
    refine .inr (.inr (.of_shows there other shows (fun who call code there => ?_)
      (fun _ => id) fun _ => .inr))
    exact contexts_set (contexts ▸ there)
  | spawns there shows contexts =>
    have same := sane.status_spawn_iff (show Status.finished ≠ .ready by decide)
    refine .inr (.inr (.of_shows there nofun shows (fun who call code there => ?_)
      (fun thread => (same thread).mpr) fun thread past => .inr ((same thread).mp past)))
    obtain ⟨ne, there⟩ := contexts_set (contexts ▸ there)
    exact ⟨ne, (contexts_set there).2⟩
  | dispatches driver there first shows contexts =>
    have same := sane.status_dispatch_iff first (show Status.finished ≠ .ready by decide)
      (show Status.finished ≠ .running by decide)
    rw [← driver] at there contexts
    refine .inr (.inr (.of_shows there nofun shows (fun who call code there => ?_)
      (fun thread => (same thread).mpr) fun thread past => .inr ((same thread).mp past)))
    exact contexts_set (contexts ▸ there)
  | @ticks tick rest after driver there shows contexts =>
    have shift : system.kernel.scene.stage.Shift (.done .nothing)
        (system.kernel.scene.wakeDue tick).stage :=
      Scene.wakeDue_shift orderly.settled tick (by simp)
    have same := shift.finished_iff sane
    rw [← driver] at there contexts
    refine .inr (.inr (.of_shows there nofun shows (fun who call code there => ?_)
      (fun thread => (same thread).mpr) fun thread past => .inr ((same thread).mp past)))
    exact contexts_set (contexts ▸ there)
  | ends away there shows contexts =>
    have retired := sane.finished_retire (orderly.running_of_thread away) none
    refine .inr (.inr (.of_shows there nofun shows (fun who call code there => ?_)
      (fun thread past => (retired thread).mpr (.inr past)) fun thread => (retired thread).mp))
    exact contexts_erase (contexts ▸ there)

/-- A context that is about to make a request makes it. -/
theorem Orderly.of_calls (orderly : system.Orderly rules) (advance : Advance rules system after)
    {request : Request} (calls : system.Calls system.current request) :
    ∃ rest progress scene, request.Outcome (system.kernel.tables.queues.size < 4294967296)
        system.kernel.scene progress scene ∧
      Lands system request.name rest scene progress after := by
  obtain ⟨-, code, there⟩ := calls
  rcases orderly.advance_cases advance with ⟨other, rest, progress, scene, there', outcome, lands⟩ |
    ⟨name, owed, rest, progress, scene, there', -, -⟩ | passive
  · cases there.symm.trans there'
    exact ⟨_, progress, scene, outcome, lands⟩
  · cases there.symm.trans there'
  · obtain ⟨code', there', plain⟩ := passive.between
    cases there.symm.trans there'
    exact absurd rfl (plain _ _)

/-- A context that is in a call goes on with it. -/
theorem Orderly.of_call (orderly : system.Orderly rules) (advance : Advance rules system after)
    {name : String} {owed : List Task} {code : List Code} (there : system.contexts.get?
      system.current = some { call := some (name, owed), code }) :
    ∃ progress scene, Resumed system.kernel.scene owed progress scene ∧
      Lands system name code scene progress after := by
  rcases orderly.advance_cases advance with ⟨other, rest, progress, scene, there', -, -⟩ |
    ⟨name, owed, rest, progress, scene, there', resumed, lands⟩ | passive
  · cases there.symm.trans there'
  · cases there.symm.trans there'
    exact ⟨progress, scene, resumed, lands⟩
  · obtain ⟨code', there', -⟩ := passive.between
    cases there.symm.trans there'

/-- Only the context that has the processor gets into a call or out of one. -/
theorem Orderly.others (orderly : system.Orderly rules) (advance : Advance rules system after)
    {who : ThreadId} {call : String × List Task} {code : List Code} (ne : who ≠ system.current)
    (there : after.contexts.get? who = some { call := some call, code }) :
    system.contexts.get? who = some { call := some call, code } := by
  rcases orderly.advance_cases advance with ⟨request, rest, progress, scene, -, -, lands⟩ |
    ⟨name, owed, rest, progress, scene, -, -, lands⟩ | passive
  · exact lands.others ne ▸ there
  · exact lands.others ne ▸ there
  · exact (passive.contexts who call code there).2

/-- Whoever has the processor has not ended. -/
theorem Orderly.alive (orderly : system.Orderly rules) :
    system.machine.status? system.current ≠ some .finished := by
  intro ended
  have ended : system.kernel.scene.stage.status system.kernel.scene.current = some .finished :=
    ended
  have sane := orderly.sane
  cases runs : system.kernel.scene.stage.running with
  | none =>
    have idle : system.kernel.scene.current = .idle := sane.current_eq_idle_iff.mpr runs
    rw [idle, sane.idle_unknown] at ended
    cases ended
  | some thread =>
    rw [Scene.current_of_running runs, sane.running_status runs] at ended
    cases ended

/-- Nobody comes back from their end. -/
theorem Orderly.finished (orderly : system.Orderly rules) (advance : Advance rules system after)
    {thread : ThreadId} (past : system.machine.status? thread = some .finished) :
    after.machine.status? thread = some .finished := by
  have sane := orderly.sane
  have settled := orderly.settled
  rcases orderly.advance_cases advance with ⟨request, rest, progress, scene, -, outcome, lands⟩ |
    ⟨name, owed, rest, progress, scene, -, resumed, lands⟩ | passive
  · exact (lands.finished_iff orderly (outcome.goes sane settled) thread).mpr (.inr past)
  · exact (lands.finished_iff orderly (resumed.goes sane settled) thread).mpr (.inr past)
  · exact passive.finished thread past

/-- Nobody ends but whoever has the processor, and that by a request that drops its record or
without touching a queue. -/
theorem Orderly.ended (orderly : system.Orderly rules) (advance : Advance rules system after)
    {thread : ThreadId} (past : after.machine.status? thread = some .finished) :
    system.machine.status? thread = some .finished ∨ system.current = thread ∧
      (system.Leaves ∨ after.kernel.scene.ledger = system.kernel.scene.ledger) := by
  have sane := orderly.sane
  have settled := orderly.settled
  rcases orderly.advance_cases advance with
    ⟨request, rest, progress, scene, there, outcome, lands⟩ |
    ⟨name, owed, rest, progress, scene, -, resumed, lands⟩ | passive
  · rcases (lands.finished_iff orderly (outcome.goes sane settled) thread).mp past with
      ⟨rfl, acts⟩ | before
    · refine .inr ⟨acts, .inl ⟨request, ⟨rfl, rest, there⟩, ?_⟩⟩
      rcases outcome.ends with rfl | ⟨index, rfl⟩ <;> rfl
    · exact .inl before
  · rcases (lands.finished_iff orderly (resumed.goes sane settled) thread).mp past with
      ⟨rfl, -⟩ | before
    · exact absurd resumed Resumed.goes_on
    · exact .inl before
  · obtain ⟨stage, sleepers, same⟩ := passive.scene_eq
    refine (passive.ended thread past).symm.imp_right fun acts => ⟨acts, .inr ?_⟩
    rw [same]

/-! ## Housed systems -/

/-- Handles are apart, whoever has exited has ended, and a call that has switched away has nothing
to do with locks or is to hold one when it returns. -/
structure Housed (system : Simulation) : Prop where
  apart : system.kernel.scene.Apart
  departed : system.kernel.scene.Departed
  owes : ∀ who name owed code,
    system.contexts.get? who = some { call := some (name, owed), code } →
    Plain owed ∨ ∃ lock ∈ system.kernel.scene.locks, system.kernel.scene.Regains who lock owed

namespace Housed

variable (housed : system.Housed)
include housed

/-- Whoever has the processor owns the lock that it has slept for. -/
theorem trusts (orderly : system.Orderly rules) {name : String} {owed : List Task}
    {rest : List Code} (there : system.contexts.get? system.current =
      some { call := some (name, owed), code := rest }) : system.kernel.scene.Trusts owed := by
  have awake := Scene.current_awake orderly.sane
  rcases housed.owes _ _ _ _ there with plain | ⟨lock, -, regains⟩
  · exact plain.trusts
  · exact regains.trusts (orderly.settled.not_waits awake (.queue lock.queue))

/-- Nobody who is still running has exited through a join point. -/
theorem first (orderly : system.Orderly rules) (index : Nat) (point : Join)
    (there : system.kernel.scene.joins[index]? = some point)
    (target : system.kernel.scene.current = point.target) : point.done = false := by
  cases past : point.done with
  | false => rfl
  | true =>
    have ended := housed.departed index point there past
    rw [← target] at ended
    exact absurd ended orderly.alive

variable (orderly : system.Orderly rules) (advance : Advance rules system after)
  (room : system.kernel.tables.queues.size < 4294967296)
include orderly advance room

/-- What a step does to the queue of any lock. -/
theorem meets :
    Scene.Meets system.Gives system.Leaves system.kernel.scene after.kernel.scene := by
  have apart := housed.apart
  rcases orderly.advance_cases advance with
    ⟨request, rest, progress, scene, there, outcome, lands⟩ |
    ⟨name, owed, rest, progress, scene, there, resumed, lands⟩ | passive
  · have calls : system.Calls system.current request := ⟨rfl, rest, there⟩
    have leaves : system.Leaves = (request.leaves = true) := by
      refine propext ⟨?_, fun leaves => ⟨request, calls, leaves⟩⟩
      rintro ⟨other, calls', leaves⟩
      exact calls.unique calls' ▸ leaves
    obtain ⟨stage, same⟩ := lands.scene_eq
    rw [same, leaves]
    have meets := outcome.meets apart orderly.sane orderly.settled room
      fun index _ => housed.first orderly index
    exact (meets.imp fun lock gives => .inl ⟨request, calls, gives⟩).restage stage _
  · have stays : system.Leaves = False := by
      refine eq_false ?_
      rintro ⟨request, ⟨-, code, calls⟩, -⟩
      cases there.symm.trans calls
    obtain ⟨stage, same⟩ := lands.scene_eq
    rw [same, stays]
    rcases housed.owes _ _ _ _ there with plain | ⟨lock, -, regains⟩
    · exact ((resumed.plain plain apart).2.imp nofun).restage stage _
    · refine ((resumed.regains regains apart).meets.imp ?_).restage stage _
      rintro _ rfl
      exact .inr ⟨name, owed, rest, there, regains⟩
  · obtain ⟨stage, sleepers, same⟩ := passive.scene_eq
    rw [same]
    exact (Scene.Meets.refl apart).restage stage sleepers

/-- What an advancing step keeps. -/
theorem advances : after.Housed := by
  have meets := housed.meets orderly advance room
  have sane := orderly.sane
  have settled := orderly.settled
  have departed : ∀ (index : Nat) (point : Join), system.kernel.scene.joins[index]? = some point →
      point.done = true → after.machine.status? point.target = some .finished :=
    fun index point there past =>
      orderly.finished advance (housed.departed index point there past)
  -- Calls of others stand as they stood, or their locks have been handed to them.
  have others : ∀ who name owed code, who ≠ system.current →
      system.contexts.get? who = some { call := some (name, owed), code } →
      Plain owed ∨ ∃ lock ∈ after.kernel.scene.locks, after.kernel.scene.Regains who lock owed := by
    intro who name owed code ne there
    refine (housed.owes who name owed code there).imp_right ?_
    rintro ⟨lock, made, regains⟩
    exact ⟨lock, meets.mem_locks made, regains.later meets made ne⟩
  rcases orderly.advance_cases advance with
    ⟨request, rest, progress, scene, there, outcome, lands⟩ |
    ⟨name, owed, rest, progress, scene, there, resumed, lands⟩ | passive
  · refine ⟨meets.apart, fun index point found past => ?_, fun who name owed code found => ?_⟩
    · obtain ⟨stage, same⟩ := lands.scene_eq
      have found : scene.joins[index]? = some point := by rwa [same] at found
      rcases outcome.closed found past with ⟨old, found, past, target⟩ | ⟨-, ended, target⟩
      · exact target ▸ departed index old found past
      · have goes := outcome.goes sane settled
        exact (lands.finished_iff orderly goes point.target).mpr (.inl ⟨ended, target.symm⟩)
    · by_cases own : who = system.current
      · rw [own] at found ⊢
        obtain ⟨switched, same⟩ := lands.away found
        rw [switched] at outcome
        rcases outcome.owed with ⟨lock, obtained, regains⟩ | ⟨-, plain⟩
        · rw [← same] at regains
          exact .inr ⟨lock, meets.mem_locks (housed.apart.obtained obtained), regains⟩
        · exact .inl plain
      · exact others who name owed code own (lands.others own ▸ found)
  · refine ⟨meets.apart, fun index point found past => ?_, fun who name owed code found => ?_⟩
    · obtain ⟨stage, same⟩ := lands.scene_eq
      have found : scene.joins[index]? = some point := by rwa [same] at found
      exact departed index point (resumed.made.2 ▸ found) past
    · by_cases own : who = system.current
      · rw [own] at found ⊢
        obtain ⟨switched, same⟩ := lands.away found
        rcases housed.owes _ _ _ _ there with plain | ⟨lock, made, regains⟩
        · obtain ⟨⟨reply, done⟩, -⟩ := resumed.plain plain housed.apart
          cases switched.symm.trans done
        · have regains := (resumed.regains regains housed.apart).switched owed switched
          rw [← same] at regains
          exact .inr ⟨lock, meets.mem_locks made, regains⟩
      · exact others who name owed code own (lands.others own ▸ found)
  · refine ⟨meets.apart, fun index point found past => ?_, fun who name owed code found => ?_⟩
    · obtain ⟨stage, sleepers, same⟩ := passive.scene_eq
      rw [same] at found
      exact departed index point found past
    · obtain ⟨ne, found⟩ := passive.contexts who (name, owed) code found
      exact others who name owed code ne found

end Housed

/-- At the beginning nothing has been made and nobody is in a call. -/
theorem housed_start (config : Config) (idleLimit : Nat) (script : List Operation) :
    (start config idleLimit script).Housed where
  apart :=
    { lock_live := nofun
      join_live := nofun
      join_apart := nofun
      join_unique := nofun
      lock_made := nofun }
  departed := nofun
  owes who name owed code there := by
    have there :
      (Directory.empty.set ThreadId.idle (Context.ofCode (Code.ofScript script))).get? who =
      some { call := some (name, owed), code } := there
    cases (contexts_set there).2

/-! ## Runs -/

section

variable (legal : ∀ driver call, rules driver call = true → call.orderly driver = true)
  (usual : ∀ violation : Violation, violation.ordinary = true → allowed violation)
include legal usual

/-- A run with room for new handles is orderly and housed until an allowed violation has spoilt it.
Being woken without the lock need not be allowed. -/
theorem housed_or_spoilt (orderly : system.Orderly rules) (housed : system.Housed) (count : Nat)
    (room : ∀ m < count, (steps m system).kernel.tables.queues.size < 4294967296) :
    (steps count system).Orderly rules ∧ (steps count system).Housed ∨
      Spoilt allowed (steps count system) := by
  induction count with
  | zero => exact .inl ⟨orderly, housed⟩
  | succ count ih =>
    have ih := ih fun m h => room m (Nat.lt_succ_of_lt h)
    rw [steps_succ]
    cases h : (steps count system).step with
    | none => exact ih
    | some next =>
      rcases ih with ⟨orderly, housed⟩ | spoilt
      · refine (step_cases orderly usual legal (.inr ?_) h).imp_left fun advances => ?_
        · intro name owed rest there
          exact housed.trusts orderly there
        · exact ⟨orderly.advances advances,
            housed.advances orderly advances.1 (room count (Nat.lt_succ_self count))⟩
      · exact .inr (spoilt.step h)

end

end Simulation

end Turnstile
