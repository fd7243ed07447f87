import Turnstile.Proofs.Simulation.Advance

/-!
# Orderly systems stay orderly

What one step keeps (`Orderly.advances`) and, by induction over its steps, what a whole run keeps
(`orderly_or_spoilt`): a system whose scripts keep to orderly requests stays orderly until a
violation that is allowed has spoilt the run, and goes no further then.
-/

namespace Turnstile

/-! ## Who notices a change of the stage -/

namespace Stage.Sane

variable {stage : Stage} (sane : stage.Sane) {thread : ThreadId}
include sane

theorem tick (clock : Nat) : Sane { stage with clock } :=
  ⟨sane.ready_nodup, sane.ready_iff, sane.running_iff, sane.known, sane.numbered⟩

theorem status_retire_iff (runs : stage.running = some thread) (violation : Option Violation)
    {status : Status} (off : status ≠ .running) (on : status ≠ .finished) (other : ThreadId) :
    (stage.retire thread violation).status other = some status ↔
      stage.status other = some status := by
  have known := sane.running_status runs
  rw [show (stage.retire thread violation).status other = _ from
    stage.status_mark known .finished other]
  split
  · rename_i same
    simp [← same, known, off.symm, on.symm]
  · rfl

theorem finished_retire (runs : stage.running = some thread) (violation : Option Violation)
    (other : ThreadId) : (stage.retire thread violation).status other = some .finished ↔
      thread = other ∨ stage.status other = some .finished := by
  rw [show (stage.retire thread violation).status other = _ from
    stage.status_mark (sane.running_status runs) .finished other]
  split
  · rename_i same
    simp [same]
  · rename_i ne
    simp [ne]

theorem status_dispatch_iff {rest : List ThreadId} (first : stage.ready = thread :: rest)
    {status : Status} (off : status ≠ .ready) (on : status ≠ .running) (other : ThreadId) :
    (stage.dispatch thread rest).status other = some status ↔
      stage.status other = some status := by
  have known : stage.status thread = some .ready := by simp [← sane.ready_iff, first]
  rw [show (stage.dispatch thread rest).status other = _ from
    stage.status_mark known .running other]
  split
  · rename_i same
    simp [← same, known, off.symm, on.symm]
  · rfl

theorem status_spawn_iff {status : Status} (on : status ≠ .ready) (other : ThreadId) :
    stage.spawn.status other = some status ↔ stage.status other = some status := by
  show (if _ then _ else _) = _ ↔ _
  split
  · rename_i same
    simp [← same, sane.new_unknown, on.symm]
  · rfl

end Stage.Sane

theorem Scene.SettledBut.stage {strays : ThreadId → Prop} {scene : Scene}
    (settled : scene.SettledBut strays) {stage : Stage}
    (asleep : ∀ thread, stage.status thread = some .blocked ↔
      scene.stage.status thread = some .blocked) : SettledBut strays { scene with stage } :=
  settled.congr (fun _ => rfl) asleep

namespace Simulation

variable {strays : ThreadId → Prop} {rules : Bool → Request → Bool} {allowed : Violation → Prop}
  {system after : Simulation} {does : Prop → Scene → Request → Progress → Scene → Prop}

/-- The context that holds the processor has been given other code. -/
theorem kept_set {contexts : Directory ThreadId Context} {who : ThreadId} {context : Context}
    (kept : ∀ who context, contexts.get? who = some context →
      Kept rules (who = .idle) context.code)
    (new : Kept rules (who = .idle) context.code) (other : ThreadId) (found : Context)
    (there : (contexts.set who context).get? other = some found) :
    Kept rules (other = .idle) found.code := by
  rw [Directory.get?_set] at there
  split at there
  · rename_i same
    cases there
    rw [← same]
    exact new
  · exact kept other found there

theorem OrderlyBut.of_shows {scene : Scene} (shows : after.kernel.Shows scene)
    (sane : scene.stage.Sane) (settled : scene.SettledBut strays)
    (kept : ∀ who context, after.contexts.get? who = some context →
      Kept rules (who = .idle) context.code)
    (driver : ∃ context, after.contexts.get? .idle = some context ∧ context.call = none ∧
      (scene.stage.running ≠ none → ∃ name rest, context.code = .dispatch name :: rest))
    (on : after.ended = false) (calm : ∀ violation, ¬ after.Raised violation) :
    after.OrderlyBut strays rules := by
  have running : after.machine.running = scene.stage.running := congrArg (·.running) shows.stage
  rw [← running] at driver
  rw [← shows.scene_eq] at sane settled
  exact ⟨shows.sound, sane, settled, kept, driver, on, calm⟩

namespace OrderlyBut

variable (orderly : system.OrderlyBut strays rules)
include orderly

/-- The driver is where it was, or between two calls if it has the processor itself. -/
theorem driver_set {contexts : Directory ThreadId Context} {context : Context}
    {running : Option ThreadId} (same : contexts.get? .idle = system.contexts.get? .idle)
    (free : system.current = .idle → context.call = none ∧ running = none)
    (runs : system.machine.running = none → running = none) :
    ∃ found, (contexts.set system.current context).get? .idle = some found ∧
      found.call = none ∧ (running ≠ none → ∃ name rest, found.code = .dispatch name :: rest) := by
  rw [Directory.get?_set, same]
  split
  · rename_i idle
    obtain ⟨none, rests⟩ := free idle
    exact ⟨context, rfl, none, fun busy => absurd rests busy⟩
  · obtain ⟨found, there, none, dispatching⟩ := orderly.driver
    exact ⟨found, there, none, fun busy => dispatching fun rests => busy (runs rests)⟩

/-- The driver is where it was when a thread has ended. -/
theorem driver_erase (thread : system.current ≠ .idle) :
    ∃ found, (system.contexts.erase system.current).get? .idle = some found ∧
      found.call = none ∧
        (none (α := ThreadId) ≠ none → ∃ name rest, found.code = .dispatch name :: rest) := by
  obtain ⟨found, there, none, -⟩ := orderly.driver
  exact ⟨found, by rw [Directory.get?_erase, if_neg thread, there], none, fun h => absurd rfl h⟩

theorem kept_erase (thread : ThreadId) (who : ThreadId) (context : Context)
    (there : (system.contexts.erase thread).get? who = some context) :
    Kept rules (who = .idle) context.code := by
  rw [Directory.get?_erase] at there
  split at there
  · cases there
  · exact orderly.kept who context there

theorem running_of_idle (idle : system.current = .idle) : system.machine.running = none :=
  orderly.sane.current_eq_idle_iff.mp idle

section

variable {scene : Scene} (shows : after.kernel.Shows scene) (sane : scene.stage.Sane)
  (settled : scene.SettledBut strays) (on : after.ended = false)
    (calm : ∀ violation, ¬ after.Raised violation)
include shows sane settled on calm

/-- The context that has the processor goes on with other code. -/
theorem goes_on {contexts : Directory ThreadId Context} {context : Context}
    (set : after.contexts = contexts.set system.current context)
    (same : contexts.get? .idle = system.contexts.get? .idle)
    (kept : ∀ who context, contexts.get? who = some context → Kept rules (who = .idle) context.code)
    (keeps : Kept rules (system.current = .idle) context.code)
    (free : system.current = .idle → context.call = none ∧ scene.stage.running = none)
    (runs : system.machine.running = none → scene.stage.running = none) :
    after.OrderlyBut strays rules := by
  refine .of_shows shows sane settled ?_ ?_ on calm
  · rw [set]
    exact kept_set kept keeps
  · rw [set]
    exact orderly.driver_set same free runs

end

/-- The running thread ends. -/
theorem retires {scene : Scene} (thread : system.current ≠ .idle) (sane : scene.stage.Sane)
    (settled : scene.SettledBut strays) (runs : scene.stage.running = some system.current)
    (shows : after.kernel.Shows { scene with stage := scene.stage.retire system.current none })
    (contexts : after.contexts = system.contexts.erase system.current)
    (on : after.ended = false) (calm : ∀ violation, ¬ after.Raised violation) :
    after.OrderlyBut strays rules := by
  refine .of_shows shows (sane.retire runs none)
    (settled.stage (sane.status_retire_iff runs none (by decide) (by decide))) ?_ ?_ on calm
  · rw [contexts]
    exact orderly.kept_erase _
  · rw [contexts]
    exact orderly.driver_erase thread

/-- A call that has come so far leaves an orderly system. -/
theorem lands {name : String} {call : Option (String × List Task)} {code rest : List Code}
    {scene : Scene} {progress : Progress}
    (there : system.contexts.get? system.current = some { call, code })
    (tail : ∀ piece ∈ rest, piece ∈ code) (goes : system.kernel.scene.GoesBut strays progress scene)
    (lands : Lands system name rest scene progress after)
    (on : after.ended = false) (calm : ∀ violation, ¬ after.Raised violation) :
    after.OrderlyBut strays rules := by
  have keeps : Kept rules (system.current = .idle) rest := fun piece h =>
    orderly.kept _ _ there piece (tail piece h)
  cases lands with
  | done shows contexts =>
    obtain ⟨-, same⟩ | ⟨⟨_, _, switched, -⟩, -⟩ := goes.running
    · exact orderly.goes_on shows goes.sane goes.settled on calm contexts rfl orderly.kept keeps
        (fun idle => ⟨rfl, same.trans (orderly.running_of_idle idle)⟩) same.trans
    · cases switched
  | switched shows contexts =>
    obtain ⟨on, -⟩ | ⟨⟨_, thread, -, runs⟩, left⟩ := goes.running
    · exact absurd rfl (on _)
    · refine orderly.goes_on shows goes.sane goes.settled on calm contexts rfl orderly.kept keeps
        (fun idle => ?_) fun _ => left
      cases runs.symm.trans (orderly.running_of_idle idle)
  | finished thread shows contexts =>
    obtain ⟨-, same⟩ | ⟨⟨_, _, switched, -⟩, -⟩ := goes.running
    · exact orderly.retires thread goes.sane goes.settled
        (same.trans (orderly.running_of_thread thread))
        shows contexts on calm
    · cases switched

/-- What an advancing step keeps. -/
theorem advances_by
    (goes : ∀ {call : Request} {room : Prop} {scene after : Scene} {progress : Progress},
      does room scene call progress after → scene.stage.Sane → scene.SettledBut strays →
      scene.GoesBut strays progress after)
    (advances : AdvancesBy does rules system after) : after.OrderlyBut strays rules := by
  obtain ⟨advance, on, calm⟩ := advances
  have sane := orderly.sane
  have settled := orderly.settled
  cases advance with
  | calls there outcome lands =>
    exact orderly.lands there (fun _ => List.mem_cons_of_mem _) (goes outcome sane settled) lands
      on calm
  | resumes there resumed lands =>
    exact orderly.lands there (fun _ h => h) (resumed.goes sane settled) lands on calm
  | turns there other kept shows contexts =>
    exact orderly.goes_on shows (sane.tick _) (settled.stage fun _ => .rfl) on calm contexts rfl
      orderly.kept kept (fun idle => ⟨rfl, orderly.running_of_idle idle⟩) id
  | spawns there shows contexts =>
    have new : (⟨system.kernel.scene.stage.nextThread⟩ : ThreadId) ≠ .idle := fun same =>
      Nat.ne_of_gt sane.numbered (congrArg ThreadId.number same)
    obtain ⟨keeps, kept⟩ := kept_cons.mp (orderly.kept _ _ there)
    refine orderly.goes_on shows sane.spawn
      (settled.stage (sane.status_spawn_iff (by decide))) on calm
      contexts (by rw [Directory.get?_set, if_neg new]) (kept_set orderly.kept ?_) kept
      (fun idle => ⟨rfl, orderly.running_of_idle idle⟩) id
    exact kept_ofScript.mpr (by simpa [new, Code.keeps, Operation.keeps] using keeps)
  | dispatches driver there first shows contexts =>
    have rests := orderly.running_of_idle driver
    refine .of_shows shows (sane.dispatch rests first)
      (settled.stage (sane.status_dispatch_iff first (by decide) (by decide))) ?_ ?_ on calm
    · rw [contexts]
      exact kept_set orderly.kept (orderly.kept _ _ there)
    · rw [contexts, Directory.get?_set, if_pos rfl]
      exact ⟨_, rfl, rfl, fun _ => ⟨_, _, rfl⟩⟩
  | @ticks tick rest after driver there shows contexts =>
    have rests : system.kernel.scene.stage.running = none := orderly.running_of_idle driver
    have part := settled.part (Scene.wakeDue_part _ tick)
    have same : (system.kernel.scene.wakeDue tick).stage.running = none :=
      (Stage.running_foldl_rouse _ _).trans rests
    rw [← driver] at there contexts
    exact orderly.goes_on shows (sane.foldl_rouse part.1 part.2) (settled.wakeDue _) on
      calm contexts rfl
      orderly.kept (kept_cons.mp (orderly.kept _ _ there)).2 (fun _ => ⟨rfl, same⟩) fun _ => same
  | ends thread there shows contexts =>
    exact orderly.retires thread sane settled (orderly.running_of_thread thread) shows
      contexts on calm

end OrderlyBut

theorem Orderly.advances (orderly : system.Orderly rules) (advances : Advances rules system after) :
    after.Orderly rules :=
  orderly.advances_by (fun outcome sane settled => outcome.goes sane settled) advances

/-! ## Runs -/

/-- Once spoilt, a run says no more than that. -/
theorem Spoilt.step (spoilt : Spoilt allowed system) (h : system.step = some after) :
    Spoilt allowed after := by
  obtain ⟨-, allows, ended | ⟨⟨violation, fault⟩, rests, name, rest, there⟩⟩ := spoilt
  · simp [Simulation.step, ended] at h
  · have idle : system.current = .idle := by
      show system.machine.running.getD .idle = _
      rw [rests]
      rfl
    -- All that can happen is that the driver, which is about to dispatch, takes the violation up.
    unfold Simulation.step at h
    split at h
    · cases h
    · rw [idle] at h
      simp only [there, Context.ofCode, Option.some.injEq] at h
      have dispatched : after = (system.withMachine { system.machine with fault := none }).fail
          .idle name violation := by
        rw [← h]
        show system.dispatch _ _ _ _ = _
        unfold dispatch
        rw [fault]
      rw [dispatched, fail, if_pos rfl]
      refine ⟨⟨violation, .inr ⟨_, List.mem_cons_self, rfl⟩⟩, ?_, .inl rfl⟩
      rintro other (pending | ⟨entry, he, result⟩)
      · cases pending
      · rcases List.mem_cons.mp he with rfl | old
        · cases result
          exact allows _ (.inl fault)
        · exact allows _ (.inr ⟨entry, old, result⟩)

theorem steps_succ (count : Nat) (system : Simulation) :
    steps (count + 1) system = ((steps count system).step).getD (steps count system) := by
  induction count generalizing system with
  | zero =>
    unfold steps
    cases system.step <;> rfl
  | succ count ih =>
    cases h : system.step with
    | none =>
      -- A run that has come to its end stays there.
      have stuck : ∀ count, steps count system = system := by
        intro count
        cases count with
        | zero => rfl
        | succ count => rw [steps, h]
      rw [stuck, stuck, h]
      rfl
    | some next =>
      have ahead : ∀ count, steps (count + 1) system = steps count next := by
        intro count
        rw [steps, h]
      rw [ahead, ahead, ih]

/-- Whether no violation has ended any context so far. -/
def untroubled (system : Simulation) : Bool :=
  system.machine.fault.isNone && system.entries.all fun entry =>
    match entry.result with
    | .violated _ => false
    | _ => true

theorem untroubled_iff :
    system.untroubled = true ↔ ∀ violation, ¬ system.Raised violation := by
  unfold untroubled
  rw [Bool.and_eq_true, Option.isNone_iff_eq_none, List.all_eq_true]
  constructor
  · rintro ⟨quiet, calm⟩ violation (pending | ⟨entry, he, result⟩)
    · rw [quiet] at pending
      cases pending
    · have calm := calm entry he
      rw [result] at calm
      cases calm
  · intro calm
    refine ⟨Option.eq_none_iff_forall_ne_some.mpr fun violation h => calm violation (.inl h), ?_⟩
    intro entry he
    split
    · rename_i violation result
      exact absurd (.inr ⟨entry, he, result⟩) (calm violation)
    · rfl

theorem Spoilt.troubled (spoilt : Spoilt allowed system) : system.untroubled ≠ true := by
  intro calm
  obtain ⟨violation, raised⟩ := spoilt.raised
  exact untroubled_iff.mp calm violation raised

/-- A run that is spoilt stays so. -/
theorem Spoilt.later {count later : Nat} (h : count ≤ later)
    (spoilt : Spoilt allowed (steps count system)) : Spoilt allowed (steps later system) := by
  induction later, h using Nat.le_induction with
  | base => exact spoilt
  | succ later _ ih =>
    rw [steps_succ]
    cases h : (steps later system).step with
    | none => exact ih
    | some next => exact ih.step h

/-- At the beginning nothing has happened. -/
theorem orderlyBut_start (config : Config) (idleLimit : Nat) {script : List Operation}
    (kept : keepAll rules true script = true) :
    (start config idleLimit script).OrderlyBut strays rules where
  sound := Tables.sound_fresh config.policy config.seed
  sane := Uniprocessor.sane_fresh
  settled :=
    { nodup := fun place => by cases place <;> exact List.nodup_nil
      apart := by
        intro place other thread here
        cases place <;> cases here
      asleep := by
        intro place thread here
        cases place <;> cases here
      waits := by
        intro thread asleep
        cases asleep }
  kept who context there := by
    have there : (Directory.empty.set ThreadId.idle (Context.ofScript script)).get? who =
      some context := there
    rw [Directory.get?_set] at there
    split at there
    · rename_i idle
      cases there
      rw [← idle]
      exact kept_ofScript.mpr kept
    · cases there
  driver := ⟨.ofScript script, rfl, rfl, fun busy => absurd rfl busy⟩
  on := rfl
  calm violation := by
    rintro (pending | ⟨entry, he, -⟩)
    · cases pending
    · cases he

theorem orderly_start (config : Config) (idleLimit : Nat) {script : List Operation}
    (kept : keepAll rules true script = true) : (start config idleLimit script).Orderly rules :=
  orderlyBut_start config idleLimit kept

/-! ### Until a run is spoilt -/

section

variable (usual : ∀ violation : Violation, violation.ordinary = true → allowed violation)
  (trusts : ∀ thread holder, allowed (.wokenWithoutLock thread holder))
include usual trusts

/-- A run is orderly until it is spoilt. -/
theorem orderly_or_spoilt_by (performs : Performs allowed strays rules does)
    (orderly : system.OrderlyBut strays rules) (count : Nat) :
    (steps count system).OrderlyBut strays rules ∨ Spoilt allowed (steps count system) := by
  induction count with
  | zero => exact .inl orderly
  | succ count ih =>
    rw [steps_succ]
    cases h : (steps count system).step with
    | none => exact ih
    | some next =>
      rcases ih with orderly | spoilt
      · exact (step_cases_by orderly usual performs (.inl trusts) h).imp_left
          (orderly.advances_by performs.goes)
      · exact .inr (spoilt.step h)

end

theorem orderly_or_spoilt
    (legal : ∀ driver call, rules driver call = true → call.orderly driver = true)
    (usual : ∀ violation : Violation, violation.ordinary = true → allowed violation)
    (trusts : ∀ thread holder, allowed (.wokenWithoutLock thread holder))
    (orderly : system.Orderly rules) (count : Nat) :
    (steps count system).Orderly rules ∨ Spoilt allowed (steps count system) :=
  orderly_or_spoilt_by usual trusts (performs_orderly usual legal) orderly count

section

variable {count m : Nat} (calm : (steps count system).untroubled = true)
include calm

/-- A run without violations is orderly at every step. -/
theorem orderly_of_untroubled_by (performs : Performs (fun _ => True) strays rules does)
    (orderly : system.OrderlyBut strays rules) (h : m ≤ count) :
    (steps m system).OrderlyBut strays rules :=
  (orderly_or_spoilt_by (fun _ _ => trivial) (fun _ _ => trivial) performs orderly m).resolve_right
    fun spoilt => (spoilt.later h).troubled calm

/-- Each step of a run without violations advances it or finds it at its end. -/
theorem moves_of_untroubled_by (performs : Performs (fun _ => True) strays rules does)
    (orderly : system.OrderlyBut strays rules) (h : m < count) :
    AdvanceBy does rules (steps m system) (steps (m + 1) system) ∨
      (steps m system).step = none ∧ steps (m + 1) system = steps m system := by
  have now := orderly_of_untroubled_by calm performs orderly (Nat.le_of_lt h)
  have unspoilt : ¬ Spoilt (fun _ => True) (steps (m + 1) system) :=
    fun spoilt => (spoilt.later h).troubled calm
  rw [steps_succ] at unspoilt ⊢
  cases next : (steps m system).step with
  | none => exact .inr ⟨rfl, rfl⟩
  | some after =>
    rw [next] at unspoilt
    have cases := step_cases_by now (fun _ _ => trivial) performs (.inl fun _ _ => trivial) next
    exact .inl (cases.resolve_right unspoilt).1

end

section

variable {count m : Nat}
  (legal : ∀ driver call, rules driver call = true → call.orderly driver = true)
  (orderly : system.Orderly rules) (calm : (steps count system).untroubled = true)
include legal orderly calm

theorem orderly_of_untroubled (h : m ≤ count) : (steps m system).Orderly rules :=
  orderly_of_untroubled_by calm (performs_orderly (fun _ _ => trivial) legal) orderly h

theorem moves_of_untroubled (h : m < count) :
    Advance rules (steps m system) (steps (m + 1) system) ∨
      (steps m system).step = none ∧ steps (m + 1) system = steps m system :=
  moves_of_untroubled_by calm (performs_orderly (fun _ _ => trivial) legal) orderly h

end

end Simulation

end Turnstile
