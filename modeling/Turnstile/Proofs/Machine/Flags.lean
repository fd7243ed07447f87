import Turnstile.Proofs.Machine.Stage

/-!
# Machines with a flag for each context

What brackets rely on. A machine is **lawful** (`LawfulMachine`) if every context has an interrupt
flag of its own, of which only setting it is noticed: putting a flag back puts back the value that
was saved, and neither yielding, sleeping nor waking touches anybody's. The machine with one
processor is lawful.

A **watched** machine (`Watched`) is one on which somebody writes down with which flag its callers
sleep and wake others. It does what the machine beneath it does.
-/

namespace Turnstile

/-- A machine whose contexts have an interrupt flag each. -/
class LawfulMachine (σ : Type) extends Machine σ where
  /-- The flag of a context. -/
  flag : ThreadId → σ → Bool
  /-- Whether the machine can come to be in a state. -/
  Proper : σ → Prop
  interrupts_eq {machine : σ} (proper : Proper machine) :
    interrupts machine = flag (current machine) machine
  setInterrupts_proper {machine : σ} (proper : Proper machine) (enabled : Bool) :
    Proper (setInterrupts enabled machine)
  current_setInterrupts {machine : σ} (proper : Proper machine) (enabled : Bool) :
    current (setInterrupts enabled machine) = current machine
  flag_setInterrupts {machine : σ} (proper : Proper machine) (enabled : Bool) (thread : ThreadId) :
    flag thread (setInterrupts enabled machine) =
      if thread = current machine then enabled else flag thread machine
  yield_proper {machine : σ} (proper : Proper machine) : Proper (yield machine).2
  flag_yield {machine : σ} (proper : Proper machine) (thread : ThreadId) :
    flag thread (yield machine).2 = flag thread machine
  current_yield {machine : σ} (proper : Proper machine) (keeps : (yield machine).1 = true) :
    current (yield machine).2 = current machine
  sleep_proper {machine after : σ} (proper : Proper machine) (slept : sleep machine = .ok after) :
    Proper after
  flag_sleep {machine after : σ} (proper : Proper machine) (slept : sleep machine = .ok after)
    (thread : ThreadId) : flag thread after = flag thread machine
  /-- Whoever has masked interrupts is not told to. -/
  sleep_masked {machine : σ} {operation : String} (off : interrupts machine = false) :
    sleep machine ≠ .error (.interruptsEnabled operation)
  ready_proper {machine after : σ} {woken : ThreadId} (proper : Proper machine)
    (readied : ready woken machine = .ok after) : Proper after
  current_ready {machine after : σ} {woken : ThreadId} (proper : Proper machine)
    (readied : ready woken machine = .ok after) : current after = current machine
  flag_ready {machine after : σ} {woken : ThreadId} (proper : Proper machine)
    (readied : ready woken machine = .ok after) (thread : ThreadId) :
    flag thread after = flag thread machine
  ready_masked {machine : σ} {woken : ThreadId} {operation : String}
    (off : interrupts machine = false) : ready woken machine ≠ .error (.interruptsEnabled operation)

/-! ## One processor -/

namespace Uniprocessor

/-- The flag of a context: the idle context's own, or what the machine knows of the thread. A thread
begins with interrupts on. -/
def flag (thread : ThreadId) (machine : Uniprocessor) : Bool :=
  if thread = .idle then machine.idleInterrupts
  else ((machine.threads.get? thread).map (·.interrupts)).getD true

variable {machine after : Uniprocessor} {thread : ThreadId}

/-- Where threads stand has no part in flags. -/
theorem flag_setStatus (machine : Uniprocessor) (thread other : ThreadId) (status : Status) :
    (machine.setStatus thread status).flag other = machine.flag other := by
  unfold flag setStatus
  dsimp only
  rw [Directory.get?_modify]
  split
  · rfl
  · split <;> simp [Function.comp_def]

section

variable (sane : machine.stage.Sane)
include sane

/-- A thread that runs is known to the machine. -/
theorem runner?_of_running (runs : machine.running = some thread) :
    ∃ state, machine.runner? = some (thread, state) ∧ machine.threads.get? thread = some state := by
  have status : machine.status? thread = some .running := (sane.running_iff thread).mp runs
  obtain ⟨state, known, -⟩ := Option.map_eq_some_iff.mp status
  exact ⟨state, by simp [runner?, runs, known], known⟩

theorem ne_idle_of_running (runs : machine.running = some thread) : thread ≠ .idle :=
  fun same => sane.idle_not_running (same ▸ runs)

theorem interrupts_eq_flag : machine.interrupts = machine.flag machine.current := by
  unfold interrupts flag current
  cases runs : machine.running with
  | none => simp [runner?, runs]
  | some thread =>
    obtain ⟨state, runner, known⟩ := runner?_of_running sane runs
    simp [runner, known, ne_idle_of_running sane runs]

theorem flag_set (enabled : Bool) (thread : ThreadId) :
    (machine.setInterrupts enabled).flag thread =
      if thread = machine.current then enabled else machine.flag thread := by
  unfold setInterrupts flag current
  cases runs : machine.running with
  | none =>
    simp only [runner?, runs, Option.bind_none, Option.getD_none]
    split <;> rfl
  | some runner =>
    obtain ⟨state, runner?, known⟩ := runner?_of_running sane runs
    have off := ne_idle_of_running sane runs
    simp only [runner?, Option.getD_some, Directory.get?_set]
    by_cases same : thread = runner
    · subst same
      simp [off]
    · simp [same, Ne.symm same]

end

/-- Whoever runs goes on running with the flag that was set. -/
theorem runner?_setInterrupts (machine : Uniprocessor) (enabled : Bool) :
    (machine.setInterrupts enabled).runner? =
      machine.runner?.map fun runner => (runner.1, { runner.2 with interrupts := enabled }) := by
  unfold setInterrupts
  cases runs : machine.runner? with
  | none => exact runs
  | some runner =>
    obtain ⟨thread, running, known⟩ := Option.bind_eq_some_iff.mp runs
    obtain ⟨state, -, rfl⟩ := Option.map_eq_some_iff.mp known
    simp [runner?, running, Directory.get?_set]

theorem interrupts_setInterrupts (machine : Uniprocessor) (enabled : Bool) :
    (machine.setInterrupts enabled).interrupts = enabled := by
  unfold interrupts
  rw [runner?_setInterrupts]
  cases runs : machine.runner? <;> simp [setInterrupts, runs]

/-- The flag set last counts. -/
theorem setInterrupts_setInterrupts (machine : Uniprocessor) (first last : Bool) :
    (machine.setInterrupts first).setInterrupts last = machine.setInterrupts last := by
  rw [setInterrupts, runner?_setInterrupts]
  cases runs : machine.runner? <;> simp [setInterrupts, runs, Directory.set_set]

/-- Putting the flag back as it is changes nothing. -/
theorem setInterrupts_interrupts (machine : Uniprocessor) :
    machine.setInterrupts machine.interrupts = machine := by
  unfold setInterrupts interrupts
  cases runs : machine.runner? with
  | none => rfl
  | some runner =>
    obtain ⟨thread, -, found⟩ := Option.bind_eq_some_iff.mp runs
    obtain ⟨state, known, rfl⟩ := Option.map_eq_some_iff.mp found
    simp [Directory.set_self known]

theorem flag_of_sleep (slept : machine.sleep = .ok after) (thread : ThreadId) :
    after.flag thread = machine.flag thread := by
  unfold sleep at slept
  split at slept
  · cases slept
  · split at slept
    · cases slept
      exact flag_setStatus machine _ thread _
    · cases slept

theorem status_of_wake (readied : machine.wake thread = .ok after) :
    machine.stage.status thread = some .blocked ∧
      after = { machine.setStatus thread .ready with ready := machine.ready ++ [thread] } := by
  unfold wake at readied
  split at readied
  · cases readied
  · split at readied
    · rename_i asleep
      cases readied
      exact ⟨asleep, rfl⟩
    · cases readied

theorem flag_of_yield (machine : Uniprocessor) (thread : ThreadId) :
    machine.yield.2.flag thread = machine.flag thread := by
  unfold yield
  split
  · exact flag_setStatus machine _ thread _
  · rfl

end Uniprocessor

instance : LawfulMachine Uniprocessor where
  flag := Uniprocessor.flag
  Proper machine := machine.stage.Sane
  interrupts_eq := Uniprocessor.interrupts_eq_flag
  setInterrupts_proper {machine} proper enabled := by
    show (machine.setInterrupts enabled).stage.Sane
    rw [Uniprocessor.stage_setInterrupts]
    exact proper
  current_setInterrupts {machine} _ enabled := by
    show (machine.setInterrupts enabled).stage.current = machine.stage.current
    rw [Uniprocessor.stage_setInterrupts]
  flag_setInterrupts proper := Uniprocessor.flag_set proper
  yield_proper {machine} proper := by
    rcases machine.yield_cases with ⟨-, kept⟩ | ⟨thread, after, runs, left, stage⟩
    · exact (congrArg (·.2) kept).symm ▸ proper
    · exact (congrArg (·.2) left).symm ▸ stage.symm ▸ proper.requeue runs
  flag_yield _ := Uniprocessor.flag_of_yield _
  current_yield {machine} _ keeps := by
    rcases machine.yield_cases with ⟨-, kept⟩ | ⟨thread, after, -, left, -⟩
    · exact congrArg (·.2.current) kept
    · cases (congrArg (·.1) left).symm.trans keeps
  sleep_proper {machine after} proper slept := by
    rcases machine.sleep_cases with failed | failed | ⟨thread, after', runs, ok, stage⟩
    · cases failed.symm.trans slept
    · cases failed.symm.trans slept
    · cases ok.symm.trans slept
      exact stage.symm ▸ proper.block runs
  flag_sleep _ := Uniprocessor.flag_of_sleep
  sleep_masked {machine operation} off := by
    have off : machine.interrupts = false := off
    show machine.sleep ≠ _
    unfold Uniprocessor.sleep
    rw [off, if_neg (by decide)]
    split <;> simp
  ready_proper {machine after woken} proper readied := by
    obtain ⟨asleep, -⟩ := Uniprocessor.status_of_wake readied
    rcases Uniprocessor.wake_cases asleep with failed | ⟨after', ok, stage⟩
    · cases failed.symm.trans readied
    · cases ok.symm.trans readied
      exact stage.symm ▸ proper.rouse asleep
  current_ready {machine after woken} _ readied := by
    obtain ⟨-, rfl⟩ := Uniprocessor.status_of_wake readied
    rfl
  flag_ready {machine after woken} _ readied thread := by
    obtain ⟨-, rfl⟩ := Uniprocessor.status_of_wake readied
    exact Uniprocessor.flag_setStatus machine _ thread _
  ready_masked {machine woken operation} off := by
    have off : machine.interrupts = false := off
    show machine.wake woken ≠ _
    unfold Uniprocessor.wake
    rw [off, if_neg (by decide)]
    split <;> simp

/-! ## Watching -/

/-- A machine, and the flags with which its callers have slept and woken others, latest first. -/
structure Watched (σ : Type) where
  machine : σ
  flags : List Bool

instance {σ : Type} [Machine σ] : Machine (Watched σ) where
  interrupts watched := Machine.interrupts watched.machine
  setInterrupts enabled watched :=
    { watched with machine := Machine.setInterrupts enabled watched.machine }
  current watched := Machine.current watched.machine
  now watched := Machine.now watched.machine
  yield watched :=
    ((Machine.yield watched.machine).1,
      { watched with machine := (Machine.yield watched.machine).2 })
  sleep watched := (Machine.sleep watched.machine).map fun machine =>
    ⟨machine, Machine.interrupts watched.machine :: watched.flags⟩
  ready thread watched := (Machine.ready thread watched.machine).map fun machine =>
    ⟨machine, Machine.interrupts watched.machine :: watched.flags⟩

end Turnstile
