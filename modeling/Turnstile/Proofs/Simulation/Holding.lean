import Turnstile.Proofs.Kernel.Lines
import Turnstile.Proofs.Simulation.Housed

/-!
# Who holds a lock

A context holds a lock (`Simulation.Holds`) if it owns the lock's queue and is in no call
that is still to obtain it. Both ways in which a call can return with a lock, at once or
after having switched away, end there (`Housed.calls_obtains`, `Housed.awaits_obtains`),
and from there on every step keeps it, other than one in which the holder gives the lock up
or ends (`Housed.holds_advances`).

A lock is given up by a request, or by a call that looks at its predicate again and waits again
(`Simulation.givesUp?`). Either way it goes to one of those who wait for it (`Orderly.hands_over`).
-/

namespace Turnstile

/-- A request that is to obtain the lock that its caller owns, and switches away, gives it
up first. -/
theorem Request.Outcome.gives_up {room : Prop} {scene after : Scene} {request : Request}
    {owed : List Task} {lock : Lock} (outcome : request.Outcome room scene (.switched owed) after)
    (obtained : request.obtained scene = some lock)
    (owns : scene.ledger.owner? lock.queue = some scene.current) :
    request.released scene = some lock := by
  cases request with
  | lockAcquire index =>
    cases outcome with
    | lockAcquire made acquires =>
      cases made.symm.trans obtained
      cases acquires with
      | held runs live held other =>
        rw [Ledger.owner?_of_queue? live, held, Scene.current_of_running runs] at owns
        cases owns
        exact absurd rfl other
  | conditionWait index => exact obtained
  | conditionWhile index predicate => exact obtained
  | _ => cases obtained

/-- A request that drops its caller's record ends its caller, unless that is all it does. -/
theorem Request.Outcome.last {room : Prop} {scene after : Scene} {request : Request}
    {progress : Progress} (outcome : request.Outcome room scene progress after)
    (leaves : request.leaves = true) (steady : ∀ name, request ≠ .exitThread name) :
    progress = .finished := by
  cases request with
  | exitThread name => exact absurd rfl (steady name)
  | finish =>
    cases outcome with
    | finish => rfl
    | quiet plain same => cases plain
  | joinExit index =>
    cases outcome with
    | joinExit => rfl
    | quiet plain same => cases plain
  | _ => cases leaves

namespace Scene

variable {scene next after : Scene} {lock : Lock} {index : Nat} {progress : Progress}

/-- If anybody waits for the lock, one of those who do owns it afterwards. -/
def GivesAway (lock : Lock) (scene after : Scene) : Prop :=
  scene.ledger.waiters lock.queue ≠ [] → ∃ winner ∈ scene.ledger.waiters lock.queue,
    after.ledger.owner? lock.queue = some winner

theorem Releases.givesAway (releases : scene.Releases lock after) : scene.GivesAway lock after := by
  obtain ⟨held, queue, winner, live, waits, nobody, rfl⟩ := releases
  intro waited
  rw [Ledger.waiters_of_queue? live] at waited ⊢
  cases winner with
  | none => exact absurd (nobody rfl) waited
  | some winner =>
    refine ⟨winner, waits winner rfl, ?_⟩
    exact (Ledger.owner?_handOn _ _ _ live (some winner)).trans (if_pos rfl)

theorem Waits.givesAway (waits : scene.Waits index progress after)
    (bound : (scene.conditions[index]?).map (·.lock) = some lock) : scene.GivesAway lock after := by
  obtain ⟨runs, made, gives⟩ := waits
  rw [made] at bound
  cases bound
  exact gives.givesAway

theorem WaitsWhile.givesAway {predicate : Memory → Bool} {passes : Nat}
    (waits : scene.WaitsWhile index predicate passes progress after)
    (holds : predicate scene.memory = true)
    (bound : (scene.conditions[index]?).map (·.lock) = some lock) : scene.GivesAway lock after := by
  cases waits with
  | stop fails => cases holds.symm.trans fails
  | waits _ waits => exact waits.givesAway bound

end Scene

/-- A request that gives a lock up hands it to one of those who wait for it. -/
theorem Request.Outcome.givesAway {room : Prop} {scene after : Scene} {request : Request}
    {progress : Progress} {lock : Lock} (outcome : request.Outcome room scene progress after)
    (released : request.released scene = some lock) : scene.GivesAway lock after := by
  cases request with
  | lockRelease index =>
    cases outcome with
    | lockRelease made releases =>
      cases made.symm.trans released
      exact releases.givesAway
    | quiet plain same => cases plain
  | conditionWait index =>
    cases outcome with
    | conditionWait waits => exact waits.givesAway released
    | quiet plain same => cases plain
  | conditionWhile index predicate =>
    cases outcome with
    | conditionWhile waits =>
      simp only [Request.released, Request.waitedUnder, Option.ite_none_right_eq_some] at released
      exact waits.givesAway released.1 released.2
    | quiet plain same => cases plain
  | _ => cases released

/-- The lock that a call gives up when it goes on with what it owes: it looks at its predicate again
and waits again. -/
def Task.released (scene : Scene) (owed : List Task) : Option Lock :=
  (linesUp? scene.current scene.memory scene.ledger owed).bind fun index =>
    (scene.conditions[index]?).map (·.lock)

/-- A call that waits again hands the lock to one of those who wait for it. -/
theorem Resumed.givesAway {scene after : Scene} {owed : List Task}
    {progress : Progress} {lock : Lock}
    (resumed : Resumed scene owed progress after)
    (released : Task.released scene owed = some lock) :
    scene.GivesAway lock after := by
  -- Before it looks at the predicate it may take the lock itself, which leaves the others waiting.
  induction resumed with
  | stop => cases released
  | @next scene mid after task rest reply progress first others ih =>
    cases first with
    | leave | confirm => exact ih released
    | @wakeDue tick =>
      have same : (scene.wakeDue tick).current = scene.current :=
        congrArg (·.getD .idle) (Stage.running_foldl_rouse scene.stage _)
      exact ih (by rw [Task.released, same]; exact released)
    | acquire acquires =>
      cases acquires with
      | free live free =>
        rw [Task.released, Task.linesUp?, Ledger.owner?_of_queue? live, if_pos free] at released
        simpa [Scene.GivesAway] using ih released
    | recheck waits =>
      obtain ⟨fails, rfl⟩ := waits.fails_of_done
      rw [Task.released, Task.linesUp?, fails] at released
      exact ih released
  | @away scene after task rest owed first =>
    cases first with
    | acquire acquires =>
      cases acquires with
      | held runs live held =>
        rw [Task.released, Task.linesUp?, Ledger.owner?_of_queue? live, if_neg (by simp [held])]
          at released
        cases released
    | recheck waits =>
      have holds := waits.owed.1
      rw [Task.released, Task.linesUp?, if_pos holds] at released
      exact waits.givesAway holds released

namespace Simulation

variable {rules : Bool → Request → Bool} {system after : Simulation}
  {thread : ThreadId} {lock : Lock}

/-- Who owns the queue of a lock. -/
def holder? (system : Simulation) (lock : Lock) : Option ThreadId :=
  system.kernel.scene.ledger.owner? lock.queue

/-- Who waits for a lock. -/
def waiters (system : Simulation) (lock : Lock) : List ThreadId :=
  system.kernel.scene.ledger.waiters lock.queue

/-- The lock that whoever has the processor is about to give up, by a request or by waiting again in
a call that waits while a predicate holds. -/
def givesUp? (system : Simulation) : Option Lock :=
  match system.contexts.get? system.current with
  | some { call := some (_, owed), code := _ } => Task.released system.kernel.scene owed
  | some { call := none, code := .operation (.request request) :: _ } =>
    request.released system.kernel.scene
  | _ => none

/-- The context owns the queue of the lock, and is in no call that is to obtain it. -/
structure Holds (system : Simulation) (thread : ThreadId) (lock : Lock) : Prop where
  made : lock ∈ system.kernel.locks
  owns : system.holder? lock = some thread
  past : ¬ system.Awaits thread lock

/-- Whoever has the processor makes a request that the rules let it make. -/
theorem Orderly.legal (orderly : system.Orderly rules) {request : Request}
    (calls : system.Calls thread request) : ∃ driver, rules driver request = true := by
  obtain ⟨-, rest, there⟩ := calls
  exact ⟨_, (kept_cons.mp (orderly.kept _ _ there)).1⟩

/-- A context that drops its record ends, if the rules let nobody drop a record and go on. -/
theorem Orderly.ended_of_leaves (orderly : system.Orderly rules)
    (advance : Advance rules system after)
    (steady : ∀ driver call, rules driver call = true → ∀ name, call ≠ .exitThread name)
    (leaves : system.Leaves) : after.machine.status? system.current = some .finished := by
  obtain ⟨request, calls, leaves⟩ := leaves
  obtain ⟨rest, progress, scene, outcome, lands⟩ := orderly.of_calls advance calls
  obtain ⟨driver, legal⟩ := orderly.legal calls
  have ended := outcome.last leaves (steady driver request legal)
  have goes := outcome.goes orderly.sane orderly.settled
  exact (lands.finished_iff orderly goes _).mpr (.inl ⟨ended, rfl⟩)

/-- Whoever is about to give a lock up makes a request or is in a call. -/
theorem cases_of_givesUp? (gives : system.givesUp? = some lock) :
    (∃ request rest, system.contexts.get? system.current =
        some (.ofCode (.operation (.request request) :: rest)) ∧
      request.released system.kernel.scene = some lock) ∨
    ∃ name owed code, system.contexts.get? system.current =
      some { call := some (name, owed), code } ∧
      Task.released system.kernel.scene owed = some lock := by
  unfold givesUp? at gives
  split at gives
  · exact .inr ⟨_, _, _, by assumption, gives⟩
  · exact .inl ⟨_, _, by assumption, gives⟩
  · cases gives

theorem busy_of_givesUp? (gives : system.givesUp? = some lock) :
    ∃ context, system.contexts.get? system.current = some context ∧
      (context.call ≠ none ∨ context.code ≠ []) := by
  rcases cases_of_givesUp? gives with ⟨_, _, there, -⟩ | ⟨_, _, _, there, -⟩
  · exact ⟨_, there, .inr nofun⟩
  · exact ⟨_, there, .inl nofun⟩

/-- A lock that is given up while others wait for it is handed to one of them. -/
theorem Orderly.hands_over (orderly : system.Orderly rules) (advance : Advance rules system after)
    (gives : system.givesUp? = some lock) (waited : system.waiters lock ≠ []) :
    ∃ winner ∈ system.waiters lock, after.holder? lock = some winner := by
  have hands : ∃ scene : Scene, system.kernel.scene.GivesAway lock scene ∧
      ∃ stage, after.kernel.scene = { scene with stage } := by
    rcases cases_of_givesUp? gives with ⟨request, rest, there, released⟩ |
      ⟨name, owed, code, there, released⟩
    · obtain ⟨rest, progress, scene, outcome, lands⟩ := orderly.of_calls advance ⟨rfl, rest, there⟩
      exact ⟨scene, outcome.givesAway released, lands.scene_eq⟩
    · obtain ⟨progress, scene, resumed, lands⟩ := orderly.of_call advance there
      exact ⟨scene, resumed.givesAway released, lands.scene_eq⟩
  obtain ⟨scene, givesAway, stage, same⟩ := hands
  obtain ⟨winner, waits, wins⟩ := givesAway waited
  refine ⟨winner, waits, ?_⟩
  rw [holder?, same]
  exact wins

/-- A context between calls awaits nothing. -/
theorem not_awaits {code : List Code}
    (there : system.contexts.get? thread = some (.ofCode code)) : ¬ system.Awaits thread lock := by
  rintro ⟨name, owed, rest, there', -⟩
  cases there.symm.trans there'

namespace Housed

variable (housed : system.Housed)
include housed

/-- Only locks that were made are given up. -/
theorem made_of_givesUp? (gives : system.givesUp? = some lock) : lock ∈ system.kernel.locks := by
  rcases cases_of_givesUp? gives with ⟨_, _, -, released⟩ | ⟨_, _, _, -, released⟩
  · exact housed.apart.released released
  · obtain ⟨index, -, bound⟩ := Option.bind_eq_some_iff.mp released
    exact housed.apart.bound bound

/-- Whoever is in a call that regains a lock somewhere awaits that lock. -/
theorem awaits {scene : Scene} {name : String} {owed : List Task} {code : List Code}
    (there : system.contexts.get? thread = some { call := some (name, owed), code })
    (regains : scene.Regains thread lock owed) : system.Awaits thread lock := by
  rcases housed.owes _ _ _ _ there with plain | ⟨other, -, regains'⟩
  · exact absurd plain regains.not_plain
  · exact ⟨name, owed, code, there, regains.unique regains' ▸ regains'⟩

variable (orderly : system.Orderly rules) (advance : Advance rules system after)
  (room : system.kernel.tables.queues.size < 4294967296)
include orderly advance room

/-- A request that is to obtain a lock. -/
theorem calls_obtains {request : Request} (calls : system.Calls system.current request)
    (obtained : request.obtained system.kernel.scene = some lock) :
    (∀ name owed code,
      after.contexts.get? system.current = some { call := some (name, owed), code } →
      after.Awaits system.current lock) ∧
    (∀ code, after.contexts.get? system.current = some (.ofCode code) →
      after.Holds system.current lock) := by
  have meets := housed.meets orderly advance room
  obtain ⟨rest, progress, scene, outcome, lands⟩ := orderly.of_calls advance calls
  refine ⟨fun name owed code there => ?_, fun code there => ?_⟩
  · obtain ⟨rfl, same⟩ := lands.away there
    rcases outcome.owed with ⟨lock', obtained', regains⟩ | ⟨none, -⟩
    · cases obtained.symm.trans obtained'
      exact ⟨name, owed, code, there, same ▸ regains⟩
    · rw [obtained] at none
      cases none
  · obtain ⟨⟨reply, rfl⟩, same⟩ := lands.back there
    refine ⟨meets.mem_locks (housed.apart.obtained obtained), ?_, not_awaits there⟩
    rw [holder?, same]
    exact outcome.owner obtained

/-- A call that is to obtain a lock goes on. -/
theorem awaits_obtains (made : lock ∈ system.kernel.locks) (awaits : system.Awaits thread lock) :
    (∀ name owed code,
      after.contexts.get? thread = some { call := some (name, owed), code } →
      after.Awaits thread lock) ∧
    (system.current = thread → ∀ code, after.contexts.get? thread = some (.ofCode code) →
      after.Holds thread lock) := by
  have meets := housed.meets orderly advance room
  obtain ⟨name, owed, code, there, regains⟩ := awaits
  by_cases acts : thread = system.current
  · rw [acts] at there regains ⊢
    obtain ⟨progress, scene, resumed, lands⟩ := orderly.of_call advance there
    have regained := resumed.regains regains housed.apart
    refine ⟨fun name owed code found => ?_, fun _ code found => ?_⟩
    · obtain ⟨switched, same⟩ := lands.away found
      exact ⟨name, owed, code, found, same ▸ regained.switched owed switched⟩
    · obtain ⟨⟨reply, done⟩, same⟩ := lands.back found
      refine ⟨meets.mem_locks made, ?_, not_awaits found⟩
      rw [holder?, same]
      exact regained.done reply done
  · refine ⟨fun name owed code found => ?_, fun same => absurd same.symm acts⟩
    cases there.symm.trans (orderly.others advance acts found)
    exact ⟨name, owed, code, found, regains.later meets made acts⟩

/-- Whoever holds a lock keeps it, unless it gives the lock up or ends. -/
theorem holds_advances (steady : ∀ driver call, rules driver call = true →
      ∀ name, call ≠ .exitThread name) (holds : system.Holds thread lock)
    (keeps : ∀ request, system.Calls thread request →
      request.released system.kernel.scene ≠ some lock)
    (alive : after.machine.status? thread ≠ some .finished) : after.Holds thread lock := by
  have meets := housed.meets orderly advance room
  have treats := meets.treats lock holds.made
  refine ⟨meets.mem_locks holds.made, ?_, ?_⟩
  -- The queue changes hands only by what its owner does, and the owner does nothing of that kind.
  · by_cases acts : thread = system.current
    · rw [acts] at holds keeps alive ⊢
      refine treats.own ?_ ?_ holds.owns
      · rintro (⟨request, calls, released⟩ | awaits)
        · exact keeps request calls released
        · exact holds.past awaits
      · exact fun leaves => alive (orderly.ended_of_leaves advance steady leaves)
    · exact treats.owned thread acts holds.owns
  -- A call that switches away meanwhile is on its way to another lock, or to none.
  · rintro ⟨name, owed, code, there, regains⟩
    by_cases acts : thread = system.current
    · rw [acts] at there regains holds keeps
      rcases orderly.advance_cases advance with
        ⟨request, rest, progress, scene, calls, outcome, lands⟩ |
        ⟨name', owed', rest, progress, scene, there', resumed, lands⟩ | passive
      · obtain ⟨rfl, same⟩ := lands.away there
        rcases outcome.owed with ⟨other, obtained, regains'⟩ | ⟨-, plain⟩
        · cases regains.unique regains'
          exact keeps request ⟨rfl, rest, calls⟩ (outcome.gives_up obtained holds.owns)
        · exact regains.not_plain plain
      · obtain ⟨switched, same⟩ := lands.away there
        rcases housed.owes _ _ _ _ there' with plain | ⟨other, made, regains'⟩
        · obtain ⟨⟨reply, done⟩, -⟩ := resumed.plain plain housed.apart
          cases switched.symm.trans done
        · have regained := (resumed.regains regains' housed.apart).switched owed switched
          cases regains.unique regained
          exact holds.past ⟨name', owed', rest, there', regains'⟩
      · exact (passive.contexts _ _ _ there).1 rfl
    · exact holds.past (housed.awaits (orderly.others advance acts there) regains)

end Housed

end Simulation

end Turnstile
