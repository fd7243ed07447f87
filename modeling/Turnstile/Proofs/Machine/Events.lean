import Mathlib.Data.List.Range
import Turnstile.Proofs.Machine.Flags

/-!
# Everything that can happen on a machine

An `Event` is one thing that the contexts of a machine with one processor can do: make a thread,
hand the processor on or give it up, wake a thread, end, or see to the clock and the flags. Events
come in any order; `Uniprocessor.runs` performs them in a row.

* **What happens** (`Event.perform_happens`): one event is one change of the stage
  (`Stage.Happens`), made where the stage allows it. Everything below is by cases on that.
* **Representations** (`sane_of_runs`): the ready list and the running thread stay as the threads
  say.
* **First come, first dispatched** (`came_of_runs`): threads come to run in the order in which they
  came to be ready, and those that have not run yet stand in the ready list, in that order.
* **Numbers** (`spawned_of_runs`, `known_of_runs`): every thread that is made has a number of its
  own, and no other threads are known.
* **The end** (`finished_of_runs`): a thread that has ended stays so.
-/

namespace Turnstile

/-! ## Changes of the stage -/

namespace Stage

/-- The second stage comes from the first by one change that the first allows, which may make a
thread. -/
inductive Happens (stage : Stage) : (made : List ThreadId) → Stage → Prop
  | spawns : Happens stage [⟨stage.nextThread⟩] stage.spawn
  | dispatches {thread : ThreadId} {rest : List ThreadId} (rests : stage.running = none)
    (first : stage.ready = thread :: rest) : Happens stage [] (stage.dispatch thread rest)
  | requeues {thread : ThreadId} (runs : stage.running = some thread) :
    Happens stage [] (stage.requeue thread)
  | blocks {thread : ThreadId} (runs : stage.running = some thread) :
    Happens stage [] (stage.block thread)
  | rouses {thread : ThreadId} (asleep : stage.status thread = some .blocked) :
    Happens stage [] (stage.rouse thread)
  | retires {thread : ThreadId} {violation : Option Violation}
    (runs : stage.running = some thread) : Happens stage [] (stage.retire thread violation)
  /-- Threads stand where they stood. -/
  | stays (clock : Nat) (fault : Option Violation) : Happens stage [] { stage with clock, fault }

/-- The threads that stand there after a change and did not before, by number. -/
def newly (status : Status) (before after : Stage) : List ThreadId :=
  ((List.range after.nextThread).map ThreadId.mk).filter fun thread =>
    after.status thread = some status ∧ before.status thread ≠ some status

section Newly

variable {status : Status} {stage after : Stage} {thread : ThreadId}

theorem newly_eq_nil
    (h : ∀ other, after.status other = some status → stage.status other = some status) :
    newly status stage after = [] := by
  refine List.filter_eq_nil_iff.mpr fun other _ => ?_
  simpa using h other

theorem newly_eq_singleton (numbered : thread.number < after.nextThread)
    (h : ∀ other, after.status other = some status ∧ stage.status other ≠ some status ↔
      other = thread) : newly status stage after = [thread] := by
  have distinct : ((List.range after.nextThread).map ThreadId.mk).Nodup :=
    List.nodup_range.map fun _ _ same => congrArg ThreadId.number same
  have there : thread ∈ (List.range after.nextThread).map ThreadId.mk :=
    List.mem_map.mpr ⟨thread.number, List.mem_range.mpr numbered, rfl⟩
  rw [newly, List.filter_congr fun other _ => decide_eq_decide.mpr (h other), List.filter_eq,
    List.count_eq_one_of_mem distinct there]
  rfl

/-- Where one known thread is marked, nobody else comes to stand anywhere. -/
theorem newly_mark (sane : stage.Sane) {old : Status} (known : stage.status thread = some old)
    (new : Status) (after : Stage) (marked : after.status = (stage.mark thread new).status)
    (numbers : after.nextThread = stage.nextThread) (status : Status) :
    newly status stage after = if new = status ∧ old ≠ status then [thread] else [] := by
  have read : ∀ other, after.status other =
      if thread = other then some new else stage.status other := fun other => by
    rw [marked, status_mark _ known]
  by_cases comes : new = status ∧ old ≠ status
  · rw [if_pos comes]
    refine newly_eq_singleton (numbers ▸ (sane.known thread old known).2) fun other => ?_
    rw [read]
    by_cases same : thread = other
    · subst same
      simp [known, comes]
    · simp [same, Ne.symm same]
  · rw [if_neg comes]
    refine newly_eq_nil fun other => ?_
    rw [read]
    by_cases same : thread = other
    · subst same
      simpa [known] using comes
    · simp [same]

end Newly

namespace Happens

variable {stage after : Stage} {made : List ThreadId} (happens : stage.Happens made after)
include happens

theorem sane (sane : stage.Sane) : after.Sane := by
  cases happens with
  | spawns => exact sane.spawn
  | dispatches rests first => exact sane.dispatch rests first
  | requeues runs => exact sane.requeue runs
  | blocks runs => exact sane.block runs
  | rouses asleep => exact sane.rouse asleep
  | retires runs => exact sane.retire runs _
  | stays clock fault => exact ⟨sane.1, sane.2, sane.3, sane.4, sane.5⟩

/-- Whoever comes to be ready goes behind the ready threads, and whoever comes to run was the
first of them. -/
theorem queues (sane : stage.Sane) : stage.ready ++ newly .ready stage after =
    newly .running stage after ++ after.ready := by
  cases happens with
  | spawns =>
    have ready : newly .ready stage stage.spawn = [⟨stage.nextThread⟩] := by
      refine newly_eq_singleton (Nat.lt_succ_self _) fun other => ?_
      show (if _ then _ else _) = _ ∧ _ ↔ _
      by_cases new : ⟨stage.nextThread⟩ = other
      · simp [← new, sane.new_unknown]
      · simp [new, Ne.symm new]
    have running : newly .running stage stage.spawn = [] := by
      refine newly_eq_nil fun other => ?_
      show (if _ then _ else _) = _ → _
      by_cases new : ⟨stage.nextThread⟩ = other <;> simp [new]
    rw [ready, running]
    rfl
  | @dispatches thread rest rests first =>
    have waits : stage.status thread = some .ready := by simp [← sane.ready_iff, first]
    have moved := newly_mark sane waits .running (stage.dispatch thread rest) rfl rfl
    rw [moved, moved, first]
    simp [Stage.dispatch]
  | @requeues thread runs =>
    have moved := newly_mark sane (sane.running_status runs) .ready (stage.requeue thread) rfl rfl
    rw [moved, moved]
    simp [Stage.requeue, Stage.rouse]
  | @blocks thread runs =>
    have moved := newly_mark sane (sane.running_status runs) .blocked (stage.block thread) rfl rfl
    rw [moved, moved]
    simp [Stage.block, Stage.mark]
  | @rouses thread asleep =>
    have moved := newly_mark sane asleep .ready (stage.rouse thread) rfl rfl
    rw [moved, moved]
    simp [Stage.rouse]
  | @retires thread violation runs =>
    have moved := newly_mark sane (sane.running_status runs) .finished
      (stage.retire thread violation) rfl rfl
    rw [moved, moved]
    simp [Stage.retire, Stage.mark]
  | stays clock fault =>
    have nobody : ∀ status, newly status stage { stage with clock, fault } = [] :=
      fun status => newly_eq_nil fun _ same => same
    rw [nobody, nobody]
    exact List.append_nil _

/-- A thread that has ended is never marked again. -/
theorem finished (sane : stage.Sane) {thread : ThreadId}
    (ended : stage.status thread = some .finished) : after.status thread = some .finished := by
  have kept : ∀ {other : ThreadId} {old new : Status}, stage.status other = some old →
      old ≠ .finished → (stage.mark other new).status thread = some .finished := by
    intro other old new known ne
    rw [status_mark _ known, if_neg, ended]
    rintro rfl
    exact ne (Option.some.inj (known.symm.trans ended))
  cases happens with
  | spawns =>
    show (if _ then _ else _) = _
    rw [if_neg, ended]
    rintro rfl
    rw [sane.new_unknown] at ended
    cases ended
  | dispatches rests first =>
    exact kept ((sane.ready_iff _).mp (first ▸ List.mem_cons_self)) (by decide)
  | requeues runs => exact kept (sane.running_status runs) (by decide)
  | blocks runs => exact kept (sane.running_status runs) (by decide)
  | rouses asleep => exact kept asleep (by decide)
  | retires runs => exact kept (sane.running_status runs) (by decide)
  | stays clock fault => exact ended

/-- The threads known are those that have got a number. -/
theorem known (numbered : 0 < stage.nextThread) (known : ∀ thread, (stage.status thread).isSome ↔
      0 < thread.number ∧ thread.number < stage.nextThread) (thread : ThreadId) :
    (after.status thread).isSome ↔ 0 < thread.number ∧ thread.number < after.nextThread := by
  have marked : ∀ (other : ThreadId) (new : Status),
      ((stage.mark other new).status thread).isSome ↔
        0 < thread.number ∧ thread.number < stage.nextThread := by
    intro other new
    rw [← known]
    show (if _ then _ else _ : Option Status).isSome ↔ _
    split <;> simp
  cases happens with
  | spawns =>
    show (if _ then _ else _ : Option Status).isSome ↔ _ ∧ _ < stage.nextThread + 1
    by_cases new : ⟨stage.nextThread⟩ = thread
    · simp [← new, numbered]
    · have ne : thread.number ≠ stage.nextThread := fun same => new (by rw [← same])
      rw [if_neg new, known]
      omega
  | dispatches rests first => exact marked _ _
  | requeues runs => exact marked _ _
  | blocks runs => exact marked _ _
  | rouses asleep => exact marked _ _
  | retires runs => exact marked _ _
  | stays clock fault => exact known thread

/-- Threads that are made get the next numbers. -/
theorem numbers : stage.nextThread ≤ after.nextThread ∧ made =
    (List.range' stage.nextThread (after.nextThread - stage.nextThread)).map ThreadId.mk := by
  cases happens with
  | spawns =>
    have one : stage.spawn.nextThread - stage.nextThread = 1 := Nat.add_sub_cancel_left _ 1
    rw [one]
    exact ⟨Nat.le_succ _, rfl⟩
  | _ =>
    refine ⟨Nat.le_refl stage.nextThread, ?_⟩
    show [] = (List.range' stage.nextThread (stage.nextThread - stage.nextThread)).map _
    rw [Nat.sub_self]
    rfl

end Happens

end Stage

/-! ## Events -/

namespace Uniprocessor

/-- One thing that a context does on a machine. -/
inductive Event
  /-- Make a thread. -/
  | spawn
  /-- The driver gives the processor to the next ready thread. -/
  | dispatch
  | yield
  | sleep
  | ready (thread : ThreadId)
  /-- The running thread ends, of itself or by a violation. -/
  | ends (violation : Option Violation)
  /-- The driver takes up the violation by which a thread has ended. -/
  | takeUp
  /-- The driver lets the clock tick. -/
  | tick
  | setInterrupts (enabled : Bool)
deriving DecidableEq, Repr

/-- What the machine is after an event, if the event can be. -/
def Event.perform : Event → Uniprocessor → Option Uniprocessor
  | spawn, machine => some machine.spawn.2
  | dispatch, machine =>
    if machine.running = none ∧ machine.fault = none then machine.dispatch? else none
  | yield, machine => some machine.yield.2
  | sleep, machine => machine.sleep.toOption
  | ready thread, machine => (machine.wake thread).toOption
  | ends violation, machine => machine.running.map fun thread => machine.retire thread violation
  | takeUp, machine =>
    if machine.running = none ∧ machine.fault ≠ none then some { machine with fault := none }
    else none
  | tick, machine =>
    if machine.running = none then some { machine with clock := machine.clock + 1 } else none
  | setInterrupts enabled, machine => some (machine.setInterrupts enabled)

/-- The thread that an event makes, if it makes one. -/
def Event.makes (machine : Uniprocessor) : Event → List ThreadId
  | spawn => [machine.spawn.1]
  | _ => []

variable {event : Event} {machine after : Uniprocessor}

theorem dispatch?_eq_none (h : machine.dispatch? = none) : machine.ready = [] := by
  unfold dispatch? at h
  split at h
  · assumption
  · cases h

theorem ok_of_toOption {result : Except Violation Uniprocessor} (h : result.toOption = some after) :
    result = .ok after := by
  cases result with
  | error violation => cases h
  | ok next =>
    cases h
    rfl

/-- An event is a change that the stage allows. -/
theorem Event.perform_happens (h : event.perform machine = some after) :
    machine.stage.Happens (event.makes machine) after.stage := by
  cases event with
  | spawn =>
    cases h
    rw [(stage_spawn machine).2]
    exact .spawns
  | dispatch =>
    obtain ⟨⟨rests, -⟩, h⟩ := Option.ite_none_right_eq_some.mp h
    obtain ⟨thread, rest, first, same⟩ := dispatch?_eq_some h
    rw [same]
    exact .dispatches rests first
  | yield =>
    cases h
    rcases machine.yield_cases with ⟨-, same⟩ | ⟨thread, next, runs, same, stage⟩
    · rw [same]
      exact .stays machine.clock machine.fault
    · rw [same, stage]
      exact .requeues runs
  | sleep =>
    have slept : machine.sleep = .ok after := ok_of_toOption h
    rcases machine.sleep_cases with same | same | ⟨thread, next, runs, same, stage⟩
    · cases slept.symm.trans same
    · cases slept.symm.trans same
    · cases slept.symm.trans same
      rw [stage]
      exact .blocks runs
  | ready thread =>
    have woken : machine.wake thread = .ok after := ok_of_toOption h
    obtain ⟨asleep, -⟩ := status_of_wake woken
    rcases wake_cases asleep with same | ⟨next, same, stage⟩
    · cases woken.symm.trans same
    · cases woken.symm.trans same
      rw [stage]
      exact .rouses asleep
  | ends violation =>
    obtain ⟨thread, runs, rfl⟩ := Option.map_eq_some_iff.mp h
    rw [stage_retire]
    exact .retires runs
  | takeUp =>
    obtain ⟨-, h⟩ := Option.ite_none_right_eq_some.mp h
    cases h
    exact .stays machine.clock none
  | tick =>
    obtain ⟨-, h⟩ := Option.ite_none_right_eq_some.mp h
    cases h
    exact .stays (machine.clock + 1) machine.fault
  | setInterrupts enabled =>
    cases h
    rw [stage_setInterrupts]
    exact .stays machine.clock machine.fault

/-! ### Entries of threads -/

theorem nodup_keys_setStatus (distinct : machine.threads.keys.Nodup) (thread : ThreadId)
    (status : Status) : (machine.setStatus thread status).threads.keys.Nodup := by
  show (machine.threads.modify thread _).keys.Nodup
  rw [Directory.keys_modify]
  exact distinct

/-- No event makes a second entry of a thread. -/
theorem Event.perform_nodup_keys (h : event.perform machine = some after)
    (distinct : machine.threads.keys.Nodup) : after.threads.keys.Nodup := by
  cases event with
  | spawn =>
    cases h
    exact Directory.nodup_keys_set distinct _ _
  | dispatch =>
    obtain ⟨-, h⟩ := Option.ite_none_right_eq_some.mp h
    unfold dispatch? at h
    split at h
    · cases h
    · cases h
      exact nodup_keys_setStatus distinct _ _
  | yield =>
    cases h
    unfold Uniprocessor.yield
    split
    · exact nodup_keys_setStatus distinct _ _
    · exact distinct
  | sleep =>
    have slept : machine.sleep = .ok after := ok_of_toOption h
    unfold Uniprocessor.sleep at slept
    split at slept
    · cases slept
    · split at slept
      · cases slept
        exact nodup_keys_setStatus distinct _ _
      · cases slept
  | ready thread =>
    have woken : machine.wake thread = .ok after := ok_of_toOption h
    obtain ⟨-, rfl⟩ := status_of_wake woken
    exact nodup_keys_setStatus distinct _ _
  | ends violation =>
    obtain ⟨thread, -, rfl⟩ := Option.map_eq_some_iff.mp h
    exact nodup_keys_setStatus distinct _ _
  | takeUp =>
    obtain ⟨-, h⟩ := Option.ite_none_right_eq_some.mp h
    cases h
    exact distinct
  | tick =>
    obtain ⟨-, h⟩ := Option.ite_none_right_eq_some.mp h
    cases h
    exact distinct
  | setInterrupts enabled =>
    cases h
    unfold Uniprocessor.setInterrupts
    split
    · exact Directory.nodup_keys_set distinct _ _
    · exact distinct

/-- Some thread is asleep if the entry of one says so. -/
theorem anyBlocked_iff (distinct : machine.threads.keys.Nodup) :
    machine.anyBlocked = true ↔ ∃ thread, machine.status? thread = some .blocked := by
  unfold anyBlocked status?
  simp only [List.any_eq_true, decide_eq_true_eq, Option.map_eq_some_iff]
  constructor
  · rintro ⟨⟨thread, state⟩, here, asleep⟩
    exact ⟨thread, state, (Directory.get?_eq_some_iff_mem distinct).mpr here, asleep⟩
  · rintro ⟨thread, state, known, asleep⟩
    exact ⟨(thread, state), Directory.mem_toList_of_get? known, asleep⟩

/-! ## Events in a row -/

/-- Let events happen in a row, if all of them can be. -/
def runs : List Event → Uniprocessor → Option Uniprocessor
  | [], machine => some machine
  | event :: rest, machine => (event.perform machine).bind (runs rest)

/-- Who comes to stand there, event by event. -/
def came (status : Status) : List Event → Uniprocessor → List ThreadId
  | [], _ => []
  | event :: rest, machine =>
    match event.perform machine with
    | some next => Stage.newly status machine.stage next.stage ++ came status rest next
    | none => []

/-- The threads that are made, event by event. -/
def spawned : List Event → Uniprocessor → List ThreadId
  | [], _ => []
  | event :: rest, machine =>
    match event.perform machine with
    | some next => event.makes machine ++ spawned rest next
    | none => []

theorem runs_cons {rest : List Event} (h : runs (event :: rest) machine = some after) :
    ∃ next, event.perform machine = some next ∧ runs rest next = some after :=
  Option.bind_eq_some_iff.mp h

theorem runs_append {events more : List Event} {mid : Uniprocessor}
    (h : runs events machine = some mid) (ho : runs more mid = some after) :
    runs (events ++ more) machine = some after := by
  induction events generalizing machine with
  | nil =>
    cases h
    exact ho
  | cons event rest ih =>
    obtain ⟨next, performed, h⟩ := runs_cons h
    show (event.perform machine).bind _ = _
    rw [performed]
    exact ih h

/-- Some events lead from the one machine to the other. -/
def Leads (machine after : Uniprocessor) : Prop := ∃ events, runs events machine = some after

theorem Leads.refl (machine : Uniprocessor) : machine.Leads machine := ⟨[], rfl⟩

theorem Leads.trans {mid : Uniprocessor} (h : machine.Leads mid) (ho : mid.Leads after) :
    machine.Leads after := by
  obtain ⟨events, h⟩ := h
  obtain ⟨more, ho⟩ := ho
  exact ⟨events ++ more, runs_append h ho⟩

theorem Leads.single (event : Event) (h : event.perform machine = some after) :
    machine.Leads after := by
  refine ⟨[event], ?_⟩
  rw [runs, h]
  rfl

section Runs

variable {events : List Event} (h : runs events machine = some after)
include h

/-- What every change keeps holds after any events. -/
theorem holds_of_runs {P : Stage → Prop}
    (kept : ∀ {made stage next}, Stage.Happens stage made next → P stage → P next)
    (holds : P machine.stage) : P after.stage := by
  induction events generalizing machine with
  | nil =>
    cases h
    exact holds
  | cons event rest ih =>
    obtain ⟨next, performed, h⟩ := runs_cons h
    exact ih h (kept (Event.perform_happens performed) holds)

theorem sane_of_runs (sane : machine.stage.Sane) : after.stage.Sane :=
  holds_of_runs h (fun happens => happens.sane) sane

/-- Those who were ready and those who came to be are those who came to run and those who still
are ready, in one order. -/
theorem came_of_runs (sane : machine.stage.Sane) : machine.ready ++ came .ready events machine =
    came .running events machine ++ after.ready := by
  induction events generalizing machine with
  | nil =>
    cases h
    exact List.append_nil _
  | cons event rest ih =>
    obtain ⟨next, performed, h⟩ := runs_cons h
    have happens := Event.perform_happens performed
    have step : machine.ready ++ Stage.newly .ready machine.stage next.stage =
        Stage.newly .running machine.stage next.stage ++ next.ready := happens.queues sane
    simp only [came, performed]
    rw [← List.append_assoc, step, List.append_assoc, ih h (happens.sane sane), List.append_assoc]

theorem nodup_keys_of_runs (distinct : machine.threads.keys.Nodup) :
    after.threads.keys.Nodup := by
  induction events generalizing machine with
  | nil =>
    cases h
    exact distinct
  | cons event rest ih =>
    obtain ⟨next, performed, h⟩ := runs_cons h
    exact ih h (Event.perform_nodup_keys performed distinct)

theorem finished_of_runs (sane : machine.stage.Sane) {thread : ThreadId}
    (ended : machine.status? thread = some .finished) :
    after.status? thread = some .finished :=
  (holds_of_runs (P := fun stage => stage.Sane ∧ stage.status thread = some .finished) h
    (fun happens held => ⟨happens.sane held.1, happens.finished held.1 held.2⟩) ⟨sane, ended⟩).2

theorem known_of_runs (sane : machine.stage.Sane)
    (known : ∀ thread, (machine.status? thread).isSome ↔
      0 < thread.number ∧ thread.number < machine.nextThread) :
    ∀ thread, (after.status? thread).isSome ↔
      0 < thread.number ∧ thread.number < after.nextThread :=
  (holds_of_runs (P := fun stage => stage.Sane ∧ ∀ thread, (stage.status thread).isSome ↔
      0 < thread.number ∧ thread.number < stage.nextThread) h
    (fun happens held => ⟨happens.sane held.1, happens.known held.1.numbered held.2⟩)
    ⟨sane, known⟩).2

theorem spawned_of_runs : machine.nextThread ≤ after.nextThread ∧ spawned events machine =
    (List.range' machine.nextThread (after.nextThread - machine.nextThread)).map ThreadId.mk := by
  induction events generalizing machine with
  | nil =>
    cases h
    exact ⟨Nat.le_refl _, by rw [Nat.sub_self]; rfl⟩
  | cons event rest ih =>
    obtain ⟨next, performed, h⟩ := runs_cons h
    obtain ⟨le, made⟩ := Event.perform_happens performed |>.numbers
    obtain ⟨le', rest⟩ := ih h
    have le : machine.nextThread ≤ next.nextThread := le
    have made : event.makes machine = (List.range' machine.nextThread
      (next.nextThread - machine.nextThread)).map ThreadId.mk := made
    refine ⟨le.trans le', ?_⟩
    simp only [spawned, performed]
    have joined := List.range'_append_1 (s := machine.nextThread)
      (m := next.nextThread - machine.nextThread) (n := after.nextThread - next.nextThread)
    rw [Nat.add_sub_cancel' le] at joined
    rw [made, rest, ← List.map_append, joined]
    congr 2
    omega

end Runs

/-! ## From the beginning -/

/-- The ready list, the processor and what is said of each thread agree. -/
structure Agrees (machine : Uniprocessor) : Prop where
  ready_nodup : machine.ready.Nodup
  ready_iff : ∀ thread, thread ∈ machine.ready ↔ machine.status? thread = some .ready
  running_iff : ∀ thread, machine.running = some thread ↔ machine.status? thread = some .running
  /-- No thread runs while the driver has the processor. -/
  driver : machine.current = .idle → ∀ thread, machine.status? thread ≠ some .running

theorem Agrees.of_sane (sane : machine.stage.Sane) : machine.Agrees where
  ready_nodup := sane.ready_nodup
  ready_iff := sane.ready_iff
  running_iff := sane.running_iff
  driver idle thread runs := by
    have rests : machine.running = none := sane.current_eq_idle_iff.mp idle
    rw [show machine.running = some thread from (sane.running_iff thread).mpr runs] at rests
    cases rests

/-- Where nobody is ready and nobody runs, everybody sleeps or has ended. -/
theorem Agrees.asleep_or_finished (agrees : machine.Agrees) (rests : machine.running = none)
    (nobody : machine.ready = []) {thread : ThreadId} {status : Status}
    (stands : machine.status? thread = some status) : status = .blocked ∨ status = .finished := by
  cases status with
  | ready =>
    rw [← agrees.ready_iff, nobody] at stands
    cases stands
  | running =>
    rw [← agrees.running_iff, rests] at stands
    cases stands
  | blocked => exact .inl rfl
  | finished => exact .inr rfl

/-- Every thread that is made has a number of its own. -/
theorem nodup_spawned {events : List Event} (h : runs events fresh = some after) :
    (spawned events fresh).Nodup := by
  rw [(spawned_of_runs h).2]
  exact List.Nodup.map (fun _ _ same => congrArg ThreadId.number same) List.nodup_range'

/-- The threads known are those that have been made. -/
theorem mem_spawned_iff {events : List Event} (h : runs events fresh = some after)
    (thread : ThreadId) : thread ∈ spawned events fresh ↔ (after.status? thread).isSome := by
  have nobody : ∀ other : ThreadId, (fresh.status? other).isSome ↔
      0 < other.number ∧ other.number < fresh.nextThread := by
    intro other
    show false = true ↔ 0 < other.number ∧ other.number < 1
    simp only [Bool.false_eq_true, false_iff]
    omega
  have first : fresh.nextThread = 1 := rfl
  obtain ⟨le, made⟩ := spawned_of_runs h
  rw [known_of_runs h sane_fresh nobody thread, made, List.mem_map]
  simp only [List.mem_range'_1, first] at le ⊢
  constructor
  · rintro ⟨number, bounds, rfl⟩
    dsimp only
    omega
  · rintro bounds
    exact ⟨thread.number, by omega, rfl⟩

end Uniprocessor

end Turnstile
