import Mathlib.Data.List.Nodup
import Turnstile.Uniprocessor

/-!
# Where threads stand

The stage is what a machine says of its threads without their interrupt flags: where each of them
stands, who is ready and who runs.

* **`Uniprocessor.stage`** reads it off the machine. Flags do not show in it, and every service of
  the machine is a change of the stage (`wake_cases`, `sleep_cases` and the lemmas beside them).
* **`Stage.Sane`**: the ready list holds the ready threads, once each, the running thread is the
  one that says so, and numbers are dealt out in order. Every change keeps it.
-/

namespace Turnstile

/-- Where threads stand. -/
@[ext]
structure Stage where
  status : ThreadId → Option Status
  ready : List ThreadId
  running : Option ThreadId
  nextThread : Nat
  clock : Nat
  fault : Option Violation

namespace Stage

/-- The context that holds the processor. -/
def current (stage : Stage) : ThreadId := stage.running.getD .idle

/-- Note where a known thread stands. -/
def mark (stage : Stage) (thread : ThreadId) (status : Status) : Stage :=
  { stage with
    status := fun other =>
      if thread = other then (stage.status other).map fun _ => status else stage.status other }

/-- The thread is ready again, behind all that are. -/
def rouse (stage : Stage) (thread : ThreadId) : Stage :=
  { stage.mark thread .ready with ready := stage.ready ++ [thread] }

/-- The running thread goes to sleep. -/
def block (stage : Stage) (thread : ThreadId) : Stage :=
  { stage.mark thread .blocked with running := none }

/-- The running thread goes behind all that are ready. -/
def requeue (stage : Stage) (thread : ThreadId) : Stage :=
  { stage.rouse thread with running := none }

/-- The running thread has ended. -/
def retire (stage : Stage) (thread : ThreadId) (violation : Option Violation) : Stage :=
  { stage.mark thread .finished with running := none, fault := stage.fault.or violation }

/-- The first of the ready threads runs. -/
def dispatch (stage : Stage) (thread : ThreadId) (rest : List ThreadId) : Stage :=
  { stage.mark thread .running with ready := rest, running := some thread }

/-- There is a new thread, which is ready. -/
def spawn (stage : Stage) : Stage :=
  { stage with
    nextThread := stage.nextThread + 1
    status := fun other =>
      if ⟨stage.nextThread⟩ = other then some .ready else stage.status other
    ready := stage.ready ++ [⟨stage.nextThread⟩] }

theorem status_mark (stage : Stage) {thread : ThreadId} {old : Status}
    (known : stage.status thread = some old) (status : Status) (other : ThreadId) :
    (stage.mark thread status).status other =
      if thread = other then some status else stage.status other := by
  show (if thread = other then _ else _) = _
  split
  · rename_i same
    rw [← same, known]
    rfl
  · rfl

theorem status_rouse {stage : Stage} {thread : ThreadId}
    (known : stage.status thread = some .blocked) (other : ThreadId) :
    (stage.rouse thread).status other =
      if thread = other then some .ready else stage.status other :=
  stage.status_mark known .ready other

/-- Of sleeping threads, all different, the others are still asleep when one has been woken. -/
theorem asleep_rouse {stage : Stage} {thread : ThreadId} {rest : List ThreadId}
    (distinct : (thread :: rest).Nodup)
    (asleep : ∀ other ∈ thread :: rest, stage.status other = some .blocked) :
    ∀ other ∈ rest, (stage.rouse thread).status other = some .blocked := by
  intro other waits
  have ne : thread ≠ other := fun same => (List.nodup_cons.mp distinct).1 (same ▸ waits)
  rw [status_rouse (asleep thread List.mem_cons_self), if_neg ne]
  exact asleep other (List.mem_cons_of_mem _ waits)

/-! ## Sane stages -/

/-- The ready list and the running thread are as the threads say, and numbers are dealt out in
order, from 1. -/
structure Sane (stage : Stage) : Prop where
  ready_nodup : stage.ready.Nodup
  ready_iff : ∀ thread, thread ∈ stage.ready ↔ stage.status thread = some .ready
  running_iff : ∀ thread, stage.running = some thread ↔ stage.status thread = some .running
  known : ∀ thread status, stage.status thread = some status →
    0 < thread.number ∧ thread.number < stage.nextThread
  numbered : 0 < stage.nextThread

namespace Sane

variable {stage : Stage} (sane : stage.Sane) {thread : ThreadId}
include sane

/-- Threads keep their numbers when one of them is marked. -/
theorem known_mark (status : Status) (other : ThreadId) (now : Status)
    (h : (stage.mark thread status).status other = some now) :
    0 < other.number ∧ other.number < stage.nextThread := by
  have h : (if thread = other then (stage.status other).map fun _ => status
    else stage.status other) = some now := h
  split at h
  · obtain ⟨old, known, -⟩ := Option.map_eq_some_iff.mp h
    exact sane.known other old known
  · exact sane.known other now h

theorem idle_unknown : stage.status .idle = none := by
  cases h : stage.status .idle with
  | none => rfl
  | some status => exact absurd (sane.known _ _ h).1 (Nat.lt_irrefl 0)

theorem idle_not_running : stage.running ≠ some .idle := fun runs => by
  have := (sane.running_iff _).mp runs
  rw [sane.idle_unknown] at this
  cases this

/-- The idle context holds the processor when no thread does. -/
theorem current_eq_idle_iff : stage.current = .idle ↔ stage.running = none := by
  unfold current
  cases h : stage.running with
  | none => simp
  | some thread =>
    have : thread ≠ .idle := fun same => sane.idle_not_running (same ▸ h)
    simpa using this

theorem new_unknown : stage.status ⟨stage.nextThread⟩ = none := by
  cases h : stage.status ⟨stage.nextThread⟩ with
  | none => rfl
  | some status => exact absurd (sane.known _ _ h).2 (Nat.lt_irrefl _)

theorem nodup_snoc (absent : thread ∉ stage.ready) : (stage.ready ++ [thread]).Nodup := by
  rw [← List.concat_eq_append]
  exact sane.ready_nodup.concat absent

theorem rouse (asleep : stage.status thread = some .blocked) : (stage.rouse thread).Sane where
  ready_nodup := by
    have absent : thread ∉ stage.ready := fun ready => by
      rw [sane.ready_iff, asleep] at ready
      cases ready
    exact sane.nodup_snoc absent
  ready_iff other := by
    show other ∈ stage.ready ++ [thread] ↔ (stage.mark thread .ready).status other = _
    rw [List.mem_append, List.mem_singleton, sane.ready_iff, status_mark _ asleep]
    by_cases h : thread = other
    · simp [h]
    · simp [h, Ne.symm h]
  running_iff other := by
    show stage.running = _ ↔ (stage.mark thread .ready).status other = _
    rw [sane.running_iff, status_mark _ asleep]
    by_cases h : thread = other
    · simp [← h, asleep]
    · simp [h]
  known := sane.known_mark .ready
  numbered := sane.numbered

section Leaving

variable (runs : stage.running = some thread)
include runs

theorem running_status : stage.status thread = some .running := (sane.running_iff thread).mp runs

/-- Nobody says to be running once the running thread says otherwise. -/
theorem nobody_runs {status : Status} (off : status ≠ .running) (other : ThreadId) :
    none = some other ↔ (stage.mark thread status).status other = some .running := by
  rw [status_mark _ (sane.running_status runs)]
  split
  · simp [off]
  · rename_i ne
    rw [← sane.running_iff, runs]
    simpa using ne

theorem not_ready : thread ∉ stage.ready := fun ready => by
  rw [sane.ready_iff, sane.running_status runs] at ready
  cases ready

/-- The running thread was not ready, and is not if it says something else. -/
theorem ready_iff_mark {status : Status} (off : status ≠ .ready) (other : ThreadId) :
    other ∈ stage.ready ↔ (stage.mark thread status).status other = some .ready := by
  rw [status_mark _ (sane.running_status runs)]
  split
  · rename_i same
    simpa [← same, off] using sane.not_ready runs
  · exact sane.ready_iff other

theorem block : (stage.block thread).Sane where
  ready_nodup := sane.ready_nodup
  ready_iff := sane.ready_iff_mark runs (by decide)
  running_iff := sane.nobody_runs runs (by decide)
  known := sane.known_mark .blocked
  numbered := sane.numbered

theorem retire (violation : Option Violation) : (stage.retire thread violation).Sane where
  ready_nodup := sane.ready_nodup
  ready_iff := sane.ready_iff_mark runs (by decide)
  running_iff := sane.nobody_runs runs (by decide)
  known := sane.known_mark .finished
  numbered := sane.numbered

theorem requeue : (stage.requeue thread).Sane where
  ready_nodup := sane.nodup_snoc (sane.not_ready runs)
  ready_iff other := by
    show other ∈ stage.ready ++ [thread] ↔ (stage.mark thread .ready).status other = _
    rw [List.mem_append, List.mem_singleton, sane.ready_iff,
      status_mark _ (sane.running_status runs)]
    by_cases h : thread = other
    · simp [h]
    · simp [h, Ne.symm h]
  running_iff := sane.nobody_runs runs (by decide)
  known := sane.known_mark .ready
  numbered := sane.numbered

end Leaving

theorem dispatch {rest : List ThreadId} (rests : stage.running = none)
    (first : stage.ready = thread :: rest) : (stage.dispatch thread rest).Sane := by
  have distinct := sane.ready_nodup
  rw [first, List.nodup_cons] at distinct
  have waits : stage.status thread = some .ready := by simp [← sane.ready_iff, first]
  exact
    { ready_nodup := distinct.2
      ready_iff := fun other => by
        show other ∈ rest ↔ (stage.mark thread .running).status other = _
        rw [status_mark _ waits]
        split
        · rename_i same
          simpa [← same] using distinct.1
        · rename_i ne
          rw [← sane.ready_iff, first, List.mem_cons]
          simp [Ne.symm ne]
      running_iff := fun other => by
        show some thread = some other ↔ (stage.mark thread .running).status other = _
        rw [status_mark _ waits]
        split
        · rename_i same
          simp [same]
        · rename_i ne
          rw [← sane.running_iff, rests]
          simpa using ne
      known := sane.known_mark .running
      numbered := sane.numbered }

theorem spawn : stage.spawn.Sane where
  ready_nodup := by
    have absent : (⟨stage.nextThread⟩ : ThreadId) ∉ stage.ready := fun ready => by
      rw [sane.ready_iff, sane.new_unknown] at ready
      cases ready
    exact sane.nodup_snoc absent
  ready_iff other := by
    show other ∈ stage.ready ++ [⟨stage.nextThread⟩] ↔ (if _ then _ else _) = _
    rw [List.mem_append, List.mem_singleton, sane.ready_iff]
    by_cases h : ⟨stage.nextThread⟩ = other
    · simp [h]
    · simp [h, Ne.symm h]
  running_iff other := by
    show stage.running = _ ↔ (if _ then _ else _) = _
    rw [sane.running_iff]
    split
    · rename_i same
      simp [← same, sane.new_unknown]
    · rfl
  known other status h := by
    have h : (if ⟨stage.nextThread⟩ = other then some .ready else stage.status other) =
      some status := h
    show 0 < other.number ∧ other.number < stage.nextThread + 1
    have numbered := sane.numbered
    split at h
    · rename_i same
      rw [← same]
      exact ⟨numbered, Nat.lt_succ_self _⟩
    · have := sane.known other status h
      omega
  numbered := Nat.succ_pos _

end Sane

end Stage

namespace Uniprocessor

/-- Where threads stand on a machine. -/
def stage (machine : Uniprocessor) : Stage :=
  { status := machine.status?
    ready := machine.ready
    running := machine.running
    nextThread := machine.nextThread
    clock := machine.clock
    fault := machine.fault }

theorem sane_fresh : fresh.stage.Sane where
  ready_nodup := List.nodup_nil
  ready_iff thread := by simp [stage, fresh, status?]
  running_iff thread := by simp [stage, fresh, status?]
  known thread status h := by simp [stage, fresh, status?] at h
  numbered := Nat.one_pos

/-! ## Changes of the machine are changes of the stage -/

theorem status?_set_of_get? {machine : Uniprocessor} {thread : ThreadId} {state : KernelThread}
    (known : machine.threads.get? thread = some state) (interrupts : Bool) (other : ThreadId) :
    ((machine.threads.set thread { state with interrupts }).get? other).map (·.status) =
      machine.status? other := by
  rw [Directory.get?_set, status?]
  split
  · rename_i same
    rw [← same, known]
    rfl
  · rfl

/-- Flags do not show. -/
@[simp] theorem stage_setInterrupts (machine : Uniprocessor) (enabled : Bool) :
    (machine.setInterrupts enabled).stage = machine.stage := by
  unfold setInterrupts
  split
  · rename_i thread state runs
    obtain ⟨runner, -, known⟩ := Option.bind_eq_some_iff.mp runs
    obtain ⟨held, found, same⟩ := Option.map_eq_some_iff.mp known
    cases same
    exact Stage.ext (funext (status?_set_of_get? found enabled)) rfl rfl rfl rfl rfl
  · rfl

theorem stage_setStatus (machine : Uniprocessor) (thread : ThreadId) (status : Status) :
    (machine.setStatus thread status).stage = machine.stage.mark thread status := by
  refine Stage.ext (funext fun other => ?_) rfl rfl rfl rfl rfl
  show ((machine.threads.modify thread _).get? other).map (·.status) =
    if thread = other then ((machine.threads.get? other).map (·.status)).map _
    else (machine.threads.get? other).map (·.status)
  rw [Directory.get?_modify]
  split <;> simp [Function.comp_def]

/-- A sleeping thread can be readied by whoever has masked interrupts. -/
theorem wake_cases {machine : Uniprocessor} {thread : ThreadId}
    (asleep : machine.stage.status thread = some .blocked) :
    machine.wake thread = .error (.interruptsEnabled "ready") ∨
      ∃ after, machine.wake thread = .ok after ∧ after.stage = machine.stage.rouse thread := by
  have asleep : machine.status? thread = some .blocked := asleep
  unfold wake
  by_cases enabled : machine.interrupts = true
  · exact .inl (if_pos enabled)
  · rw [if_neg enabled, if_pos asleep]
    refine .inr ⟨_, rfl, ?_⟩
    rw [Stage.rouse, ← stage_setStatus]
    rfl

/-- A thread that has masked interrupts can sleep; the idle context cannot. -/
theorem sleep_cases (machine : Uniprocessor) :
    machine.sleep = .error (.interruptsEnabled "sleep") ∨ machine.sleep = .error .idleSleeps ∨
      ∃ thread after, machine.running = some thread ∧ machine.sleep = .ok after ∧
        after.stage = machine.stage.block thread := by
  unfold sleep
  split
  · exact .inl rfl
  · cases runs : machine.running with
    | none => exact .inr (.inl rfl)
    | some thread =>
      refine .inr (.inr ⟨thread, machine.block thread, rfl, rfl, ?_⟩)
      rw [Stage.block, ← stage_setStatus]
      rfl

/-- A thread that yields goes behind the others; the idle context goes on. -/
theorem yield_cases (machine : Uniprocessor) :
    (machine.running = none ∧ machine.yield = (true, machine)) ∨
      ∃ thread after, machine.running = some thread ∧ machine.yield = (false, after) ∧
        after.stage = machine.stage.requeue thread := by
  unfold yield
  cases runs : machine.running with
  | none => exact .inl ⟨rfl, rfl⟩
  | some thread =>
    refine .inr ⟨thread, machine.requeue thread, rfl, rfl, ?_⟩
    rw [Stage.requeue, Stage.rouse, ← stage_setStatus]
    rfl

theorem stage_retire (machine : Uniprocessor) (thread : ThreadId) (violation : Option Violation) :
    (machine.retire thread violation).stage = machine.stage.retire thread violation := by
  rw [Stage.retire, ← stage_setStatus]
  rfl

theorem stage_spawn (machine : Uniprocessor) :
    machine.spawn.1 = ⟨machine.stage.nextThread⟩ ∧ machine.spawn.2.stage = machine.stage.spawn := by
  refine ⟨rfl, Stage.ext (funext fun other => ?_) rfl rfl rfl rfl rfl⟩
  show ((machine.threads.set ⟨machine.nextThread⟩ _).get? other).map (·.status) =
    if ⟨machine.nextThread⟩ = other then some .ready else machine.status? other
  rw [Directory.get?_set]
  split <;> rfl

/-- Dispatching takes the first of the ready threads. -/
theorem dispatch?_eq_some {machine after : Uniprocessor} (h : machine.dispatch? = some after) :
    ∃ thread rest, machine.stage.ready = thread :: rest ∧
      after.stage = machine.stage.dispatch thread rest := by
  unfold dispatch? at h
  split at h
  · cases h
  · rename_i thread rest first
    cases h
    refine ⟨thread, rest, first, ?_⟩
    rw [stage_setStatus]
    rfl

end Uniprocessor

end Turnstile
