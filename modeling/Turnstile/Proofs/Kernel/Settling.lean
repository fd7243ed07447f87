import Turnstile.Proofs.Kernel.Outcome

/-!
# Threads wait where they sleep

What requests do to the stage and to those who wait.

* **The stage**: an outcome wakes some sleeping threads, and if it switches away it puts its caller
  to sleep or behind the others that are ready (`Stage.Shift`, `Request.Outcome.shift`).
* **Waiting**: every outcome leaves a settled scene settled (`Request.Outcome.settled`), and so does
  every task of a call that has switched away (`Task.Outcome.settled`).
-/

namespace Turnstile

open Kernel

namespace Stage

variable {stage : Stage} {woken : List ThreadId}

/-! ## Waking several threads -/

theorem running_foldl_rouse (stage : Stage) (woken : List ThreadId) :
    (woken.foldl rouse stage).running = stage.running := by
  induction woken generalizing stage with
  | nil => rfl
  | cons thread rest ih => exact ih (stage.rouse thread)

theorem clock_foldl_rouse (stage : Stage) (woken : List ThreadId) :
    (woken.foldl rouse stage).clock = stage.clock := by
  induction woken generalizing stage with
  | nil => rfl
  | cons thread rest ih => exact ih (stage.rouse thread)

/-- Threads become ready in the order in which they are woken. -/
theorem ready_foldl_rouse (stage : Stage) (woken : List ThreadId) :
    (woken.foldl rouse stage).ready = stage.ready ++ woken := by
  induction woken generalizing stage with
  | nil => exact (List.append_nil _).symm
  | cons thread rest ih =>
    rw [List.foldl_cons, ih, rouse, List.append_assoc]
    rfl

/-- Threads that were asleep, all different, are ready once they have been woken. -/
theorem status_foldl_rouse (distinct : woken.Nodup)
    (asleep : ∀ thread ∈ woken, stage.status thread = some .blocked) (other : ThreadId) :
    (woken.foldl rouse stage).status other =
      if other ∈ woken then some .ready else stage.status other := by
  induction woken generalizing stage with
  | nil => simp
  | cons thread rest ih =>
    rw [List.foldl_cons, ih distinct.tail (asleep_rouse distinct asleep),
      status_rouse (asleep thread List.mem_cons_self)]
    by_cases here : thread = other
    · simp [here]
    · simp [here, Ne.symm here]

theorem Sane.foldl_rouse (sane : stage.Sane) (distinct : woken.Nodup)
    (asleep : ∀ thread ∈ woken, stage.status thread = some .blocked) :
    (woken.foldl Stage.rouse stage).Sane := by
  induction woken generalizing stage with
  | nil => exact sane
  | cons thread rest ih =>
    exact ih (sane.rouse (asleep thread List.mem_cons_self)) distinct.tail
      (asleep_rouse distinct asleep)

/-- A thread is there and has not ended. -/
def Unfinished (stage : Stage) (thread : ThreadId) : Prop :=
  ∃ status, stage.status thread = some status ∧ status ≠ .finished

/-- Whoever has not ended when another ends had not ended before. -/
theorem Unfinished.of_retire {stage : Stage} {who thread : ThreadId} {violation : Option Violation}
    (here : (stage.retire who violation).Unfinished thread) :
    who ≠ thread ∧ stage.Unfinished thread := by
  obtain ⟨status, known, on⟩ := here
  have known : (if who = thread then (stage.status thread).map fun _ => .finished
    else stage.status thread) = some status := known
  split at known
  · obtain ⟨-, -, rfl⟩ := Option.map_eq_some_iff.mp known
    exact absurd rfl on
  · rename_i other
    exact ⟨other, status, known, on⟩

/-! ## What a call does to the stage -/

/-- A call that comes so far wakes some threads and may stop its caller. -/
inductive Shift (stage : Stage) : Progress → Stage → Prop
  | goes {progress : Progress} {woken : List ThreadId} (on : ∀ owed, progress ≠ .switched owed)
    (distinct : woken.Nodup) (asleep : ∀ thread ∈ woken, stage.status thread = some .blocked) :
    Shift stage progress (woken.foldl rouse stage)
  | sleeps {owed : List Task} {woken : List ThreadId} {thread : ThreadId}
    (runs : stage.running = some thread) (distinct : woken.Nodup)
    (asleep : ∀ thread ∈ woken, stage.status thread = some .blocked) :
    Shift stage (.switched owed) ((woken.foldl rouse stage).block thread)
  | yields {owed : List Task} {thread : ThreadId} (runs : stage.running = some thread) :
    Shift stage (.switched owed) (stage.requeue thread)

namespace Shift

variable {after : Stage} {progress : Progress}

theorem stays (on : ∀ owed, progress ≠ .switched owed) : stage.Shift progress stage :=
  @goes stage progress [] on List.nodup_nil (by simp)

theorem sane (shift : stage.Shift progress after) (sane : stage.Sane) : after.Sane := by
  cases shift with
  | goes on distinct asleep => exact sane.foldl_rouse distinct asleep
  | sleeps runs distinct asleep =>
    exact (sane.foldl_rouse distinct asleep).block ((running_foldl_rouse _ _).trans runs)
  | yields runs => exact sane.requeue runs

/-- Whoever calls keeps the processor unless the call switches away. -/
theorem running (shift : stage.Shift progress after) :
    (∀ owed, progress ≠ .switched owed) ∧ after.running = stage.running ∨
      (∃ owed thread, progress = .switched owed ∧ stage.running = some thread) ∧
        after.running = none := by
  cases shift with
  | goes on => exact .inl ⟨on, running_foldl_rouse _ _⟩
  | sleeps runs => exact .inr ⟨⟨_, _, rfl, runs⟩, rfl⟩
  | yields runs => exact .inr ⟨⟨_, _, rfl, runs⟩, rfl⟩

/-- A call changes where a thread stands only if that thread was asleep or makes the call. -/
theorem status_cases (shift : stage.Shift progress after) (sane : stage.Sane) (other : ThreadId) :
    after.status other = stage.status other ∨
      (stage.status other = some .blocked ∨ stage.status other = some .running) ∧
        (after.status other = some .ready ∨ after.status other = some .blocked) := by
  cases shift with
  | goes on distinct asleep =>
    rw [status_foldl_rouse distinct asleep]
    split
    · rename_i here
      exact .inr ⟨.inl (asleep other here), .inl rfl⟩
    · exact .inl rfl
  | @sleeps owed woken thread runs distinct asleep =>
    have running := (sane.running_iff thread).mp runs
    -- whoever is woken was asleep, so the caller is none of them
    have known : (woken.foldl rouse stage).status thread = some .running := by
      rw [status_foldl_rouse distinct asleep, if_neg fun here => ?_, running]
      rw [asleep thread here] at running
      cases running
    have marked := status_mark _ known .blocked other
    rw [status_foldl_rouse distinct asleep] at marked
    by_cases same : thread = other
    · rw [← same] at marked ⊢
      rw [if_pos rfl] at marked
      exact .inr ⟨.inr running, .inr marked⟩
    · rw [if_neg same] at marked
      by_cases here : other ∈ woken
      · rw [if_pos here] at marked
        exact .inr ⟨.inl (asleep other here), .inl marked⟩
      · rw [if_neg here] at marked
        exact .inl marked
  | @yields owed thread runs =>
    have known := (sane.running_iff thread).mp runs
    have marked := status_mark _ known .ready other
    by_cases same : thread = other
    · rw [← same] at marked ⊢
      rw [if_pos rfl] at marked
      exact .inr ⟨.inr known, .inl marked⟩
    · rw [if_neg same] at marked
      exact .inl marked

/-- A call ends nobody. -/
theorem finished_iff (shift : stage.Shift progress after) (sane : stage.Sane) (other : ThreadId) :
    after.status other = some .finished ↔ stage.status other = some .finished := by
  rcases shift.status_cases sane other with same | ⟨before | before, now | now⟩
  · rw [same]
  all_goals simp [before, now]

/-- Whoever is there after a call and has not ended was there before. -/
theorem unfinished (shift : stage.Shift progress after) (sane : stage.Sane) {thread : ThreadId}
    (here : after.Unfinished thread) : stage.Unfinished thread := by
  rcases shift.status_cases sane thread with same | ⟨asleep | runs, -⟩
  · obtain ⟨status, known, on⟩ := here
    exact ⟨status, same ▸ known, on⟩
  · exact ⟨_, asleep, nofun⟩
  · exact ⟨_, runs, nofun⟩

/-- A call takes no time. -/
theorem clock (shift : stage.Shift progress after) : after.clock = stage.clock := by
  cases shift with
  | goes | sleeps => exact clock_foldl_rouse _ _
  | yields => rfl

/-- Whoever is ready stays ready. -/
theorem ready (shift : stage.Shift progress after) (sane : stage.Sane) {thread : ThreadId}
    (waits : stage.status thread = some .ready) : after.status thread = some .ready := by
  rcases shift.status_cases sane thread with same | ⟨asleep | runs, -⟩
  · rw [same, waits]
  · cases waits.symm.trans asleep
  · cases waits.symm.trans runs

theorem owing (shift : stage.Shift progress after) (tasks : List Task) :
    stage.Shift (progress.owing tasks) after := by
  cases shift with
  | goes on distinct asleep =>
    refine .goes (fun owed => ?_) distinct asleep
    cases progress with
    | switched owed => exact absurd rfl (on owed)
    | done | finished => exact fun same => by cases same
  | sleeps runs distinct asleep => exact .sleeps runs distinct asleep
  | yields runs => exact .yields runs

end Shift

theorem blocked_foldl_rouse (distinct : woken.Nodup)
    (asleep : ∀ thread ∈ woken, stage.status thread = some .blocked) (other : ThreadId) :
    (woken.foldl rouse stage).status other = some .blocked ↔
      stage.status other = some .blocked ∧ other ∉ woken := by
  rw [status_foldl_rouse distinct asleep]
  split
  · rename_i here
    simp [here]
  · rename_i off
    simp [off]

theorem Sane.blocked_block (sane : stage.Sane) (runs : stage.running = some thread)
    (other : ThreadId) : (stage.block thread).status other = some .blocked ↔
      other = thread ∨ stage.status other = some .blocked := by
  rw [show (stage.block thread).status other = _ from
    stage.status_mark (sane.running_status runs) .blocked other]
  split
  · rename_i same
    simp [same]
  · rename_i ne
    simp [Ne.symm ne]

theorem Sane.blocked_requeue (sane : stage.Sane) (runs : stage.running = some thread)
    (other : ThreadId) : (stage.requeue thread).status other = some .blocked ↔
      stage.status other = some .blocked := by
  have known := sane.running_status runs
  rw [show (stage.requeue thread).status other = _ from stage.status_mark known .ready other]
  split
  · rename_i same
    simp [← same, known]
  · rfl

end Stage

namespace Scene

variable {strays : ThreadId → Prop} {scene after : Scene} {thread : ThreadId} {id : QueueId}

/-- Whoever holds the processor is awake. -/
theorem current_awake (sane : scene.stage.Sane) : ¬ scene.Asleep scene.current := by
  intro asleep
  unfold Asleep at asleep
  cases runs : scene.stage.running with
  | none =>
    have idle : scene.current = .idle := sane.current_eq_idle_iff.mpr runs
    rw [idle, sane.idle_unknown] at asleep
    cases asleep
  | some thread =>
    rw [current_of_running runs, sane.running_status runs] at asleep
    cases asleep

namespace SettledBut

variable (settled : scene.SettledBut strays)
include settled

/-- Where the queues have the same waiters, their owners do not matter. -/
theorem ledger {ledger : Ledger} (same : ∀ id, ledger.waiters id = scene.ledger.waiters id) :
    SettledBut strays { scene with ledger } := by
  refine settled.congr (fun place => ?_) fun other => .rfl
  cases place with
  | queue id => exact same id
  | condition index => rfl
  | alarm => rfl

theorem quiet (same : scene.Quiet after) : after.SettledBut strays := by
  obtain ⟨ledger, memory, queues, rfl⟩ := same
  have same : ∀ id, ledger.waiters id = scene.ledger.waiters id := fun id => by
    rw [Ledger.waiters, queues]
    rfl
  exact (settled.ledger same).congr (fun _ => rfl) fun _ => .rfl

/-- The record of a thread that is awake can be dropped: it waits nowhere. -/
theorem dismiss (awake : ¬ scene.Asleep thread) :
    SettledBut strays { scene with ledger := scene.ledger.dismiss thread } := by
  refine settled.ledger fun id => ?_
  rw [Ledger.waiters_dismiss]
  exact Ledger.filter_of_notMem (settled.not_waits awake (.queue id))

/-- Some who wait at one place are all different and asleep. -/
theorem part {place : Place} {woken : List ThreadId}
    (part : woken.Sublist (scene.waitlist place)) :
    woken.Nodup ∧ ∀ thread ∈ woken, scene.stage.status thread = some .blocked :=
  ⟨(settled.nodup place).sublist part, fun _ waits => settled.asleep (part.subset waits)⟩

theorem makes {room : Prop} {donation : Bool} (makes : scene.Makes room donation id after) :
    after.SettledBut strays := by
  rcases makes with ⟨free, rfl⟩ | ⟨-, rfl⟩
  · refine settled.ledger fun other => ?_
    rw [Ledger.waiters_place]
    split
    · rename_i same
      simp [same, Ledger.waiters, free, Queue.fresh]
    · rfl
  · exact settled

theorem handsOn (hands : scene.HandsOn id after) : after.SettledBut strays := by
  obtain ⟨queue, winner, live, waits, -, rfl⟩ := hands
  cases winner with
  | none => exact settled.ledger fun other => Ledger.waiters_vacate scene.ledger id other
  | some winner =>
    have here : winner ∈ scene.ledger.waiters id := by
      rw [Ledger.waiters_of_queue? live]
      exact waits winner rfl
    have asleep : scene.Asleep winner := settled.asleep_of_waiters here
    have left : ([winner] ++ (scene.ledger.handOn id (some winner)).waiters id).Perm
        (scene.ledger.waiters id) := by
      rw [Ledger.waiters_handOn, if_pos rfl]
      exact (List.perm_cons_erase here).symm
    refine settled.rouse (.queue id) left (fun other ne => ?_) ?_
    · cases other with
      | queue other =>
        have off : other ≠ id := fun same => ne (congrArg Place.queue same)
        exact (Ledger.waiters_handOn scene.ledger id other (some winner)).trans (if_neg off)
      | condition index => rfl
      | alarm => rfl
    · exact Stage.blocked_foldl_rouse (List.nodup_singleton winner) fun thread ht =>
        List.mem_singleton.mp ht ▸ asleep

variable (sane : scene.stage.Sane) (runs : scene.stage.running = some thread)
include sane runs

/-- The running thread can go to sleep in a queue. -/
theorem wait {queue : Queue} (live : scene.ledger.queue? id = some queue) :
    (scene.park id thread).SettledBut strays := by
  have awake : ¬ scene.Asleep thread := current_of_running runs ▸ current_awake sane
  refine SettledBut.park settled (.queue id) awake ?_ (fun other ne => ?_)
    (sane.blocked_block runs)
  · show ((scene.ledger.join id thread).waiters id).Perm _
    rw [Ledger.waiters_join _ _ _ _ live, if_pos rfl]
    exact List.perm_append_singleton thread _
  · cases other with
    | queue other =>
      have off : other ≠ id := fun same => ne (congrArg Place.queue same)
      exact (Ledger.waiters_join _ _ _ _ live).trans (if_neg off)
    | condition index => rfl
    | alarm => rfl

/-- The running thread can go to sleep in the line of a condition. -/
theorem lineUp {index : Nat} {condition : Condition}
    (made : scene.conditions[index]? = some condition) :
    (scene.lineUp index thread).SettledBut strays := by
  have awake : ¬ scene.Asleep thread := current_of_running runs ▸ current_awake sane
  refine SettledBut.park settled (.condition index) awake ?_ (fun other ne => ?_)
    (sane.blocked_block runs)
  · have line : (scene.lineUp index thread).waitlist (.condition index) =
        condition.waiting ++ [thread] := by
      simp [Scene.lineUp, waitlist, made]
    rw [line, waitlist_condition made]
    exact List.perm_append_singleton thread _
  · cases other with
    | queue other => rfl
    | condition other =>
      have off : index ≠ other := fun same => ne (congrArg Place.condition same.symm)
      simp [Scene.lineUp, waitlist, off]
    | alarm => rfl

/-- The running thread can go to sleep for some ticks. -/
theorem nap (wakeAt : Nat) : SettledBut strays { scene with
    sleepers := scene.sleepers.insert wakeAt thread
    stage := scene.stage.block thread } := by
  have awake : ¬ scene.Asleep thread := current_of_running runs ▸ current_awake sane
  refine SettledBut.park settled .alarm awake ?_ (fun other ne => ?_)
    (sane.blocked_block runs)
  · exact (SleepQueue.place_perm _ _).map _
  · cases other with
    | queue other => rfl
    | condition index => rfl
    | alarm => exact absurd rfl ne

end SettledBut

/-! ## Operations by which threads meet -/

section

variable {progress : Progress}

theorem Acquires.shift {lock : Lock} (acquires : scene.Acquires lock progress after) :
    scene.stage.Shift progress after.stage := by
  cases acquires with
  | free => exact .stays (by simp)
  | held runs => exact @Stage.Shift.sleeps scene.stage _ [] _ runs List.nodup_nil (by simp)

theorem Acquires.settled {lock : Lock} (acquires : scene.Acquires lock progress after)
    (sane : scene.stage.Sane) (settled : scene.SettledBut strays) : after.SettledBut strays := by
  cases acquires with
  | free => exact settled.ledger fun other => Ledger.waiters_install _ _ other _
  | held runs live => exact settled.wait sane runs live

/-- Whoever a queue is handed to was asleep. -/
theorem HandsOn.woken (hands : scene.HandsOn id after) (settled : scene.SettledBut strays) :
    ∃ woken : List ThreadId, woken.Nodup ∧
      (∀ thread ∈ woken, scene.stage.status thread = some .blocked) ∧
      after.stage = woken.foldl Stage.rouse scene.stage := by
  obtain ⟨queue, winner, live, waits, -, rfl⟩ := hands
  cases winner with
  | none => exact ⟨[], List.nodup_nil, by simp, rfl⟩
  | some winner =>
    refine ⟨[winner], List.nodup_singleton winner, fun thread ht => ?_, rfl⟩
    rw [List.mem_singleton.mp ht]
    exact settled.asleep_of_queue live (waits winner rfl)

theorem HandsOn.running (hands : scene.HandsOn id after) :
    after.stage.running = scene.stage.running := by
  obtain ⟨queue, winner, -, -, -, rfl⟩ := hands
  exact running_handOn scene id winner

theorem HandsOn.conditions (hands : scene.HandsOn id after) :
    after.conditions = scene.conditions := by
  obtain ⟨queue, winner, -, -, -, rfl⟩ := hands
  rfl

theorem HandsOn.shift (hands : scene.HandsOn id after) (settled : scene.SettledBut strays)
    (on : ∀ owed, progress ≠ .switched owed) : scene.stage.Shift progress after.stage := by
  obtain ⟨woken, distinct, asleep, same⟩ := hands.woken settled
  rw [same]
  exact .goes on distinct asleep

theorem Waits.shift {index : Nat} (waits : scene.Waits index progress after)
    (settled : scene.SettledBut strays) : scene.stage.Shift progress after.stage := by
  obtain ⟨runs, -, gives⟩ := waits
  obtain ⟨woken, distinct, asleep, same⟩ := gives.hands.woken settled
  show scene.stage.Shift _ (Stage.block _ _)
  rw [same]
  exact .sleeps runs distinct asleep

theorem Waits.settled {index : Nat} (waits : scene.Waits index progress after)
    (sane : scene.stage.Sane) (settled : scene.SettledBut strays) : after.SettledBut strays := by
  obtain ⟨runs, made, gives⟩ := waits
  have shift : scene.stage.Shift (.done .nothing) _ := gives.hands.shift settled (by simp)
  have sane' := shift.sane sane
  rw [← gives.hands.running] at runs
  rw [← gives.hands.conditions] at made
  exact (settled.handsOn gives.hands).lineUp sane' runs made

theorem WaitsWhile.shift {index passes : Nat} {predicate : Memory → Bool}
    (waits : scene.WaitsWhile index predicate passes progress after)
    (settled : scene.SettledBut strays) :
    scene.stage.Shift progress after.stage := by
  cases waits with
  | stop => exact .stays (by simp)
  | waits holds waits => exact (waits.shift settled).owing _

theorem WaitsWhile.settled {index passes : Nat} {predicate : Memory → Bool}
    (waits : scene.WaitsWhile index predicate passes progress after)
    (sane : scene.stage.Sane) (settled : scene.SettledBut strays) : after.SettledBut strays := by
  cases waits with
  | stop => exact settled
  | waits holds waits => exact waits.settled sane settled

theorem CallsUp.shift {index : Nat} {all : Bool} (calls : scene.CallsUp index all after)
    (settled : scene.SettledBut strays)
    (on : ∀ owed, progress ≠ .switched owed) : scene.stage.Shift progress after.stage := by
  cases calls with
  | nobody => exact .stays on
  | @some condition woken left made line =>
    rw [← waitlist_condition made] at line
    have part := settled.part (line ▸ List.sublist_append_left woken left)
    exact .goes on part.1 part.2

theorem CallsUp.settled {index : Nat} {all : Bool} (calls : scene.CallsUp index all after)
    (settled : scene.SettledBut strays) : after.SettledBut strays := by
  cases calls with
  | nobody => exact settled
  | @some condition woken left made line =>
    have line' := line
    rw [← waitlist_condition made] at line'
    have part := settled.part (line' ▸ List.sublist_append_left woken left)
    have here : (woken ++ (scene.callUp index woken left).waitlist (.condition index)).Perm
        (scene.waitlist (.condition index)) := by
      have rest : (scene.callUp index woken left).waitlist (.condition index) = left := by
        simp [callUp, waitlist, made]
      rw [rest, line']
    refine settled.rouse (.condition index) here (fun other ne => ?_)
      (Stage.blocked_foldl_rouse part.1 part.2)
    cases other with
    | queue other => rfl
    | condition other =>
      have off : index ≠ other := fun same => ne (congrArg Place.condition same.symm)
      simp [callUp, waitlist, off]
    | alarm => rfl

theorem wakeDue_part (scene : Scene) (tick : Nat) :
    (scene.sleepers.drainDue tick).1.Sublist (scene.waitlist .alarm) :=
  (List.takeWhile_sublist _).map _

theorem wakeDue_shift (settled : scene.SettledBut strays) (tick : Nat)
    (on : ∀ owed, progress ≠ .switched owed) :
    scene.stage.Shift progress (scene.wakeDue tick).stage :=
  have part := settled.part (scene.wakeDue_part tick)
  .goes on part.1 part.2

theorem SettledBut.wakeDue (settled : scene.SettledBut strays) (tick : Nat) :
    (scene.wakeDue tick).SettledBut strays := by
  have part := settled.part (scene.wakeDue_part tick)
  have here : ((scene.sleepers.drainDue tick).1 ++ (scene.wakeDue tick).waitlist .alarm).Perm
      (scene.waitlist .alarm) := by
    show ((scene.sleepers.sleepers.takeWhile _).map (·.thread) ++
      (scene.sleepers.sleepers.dropWhile _).map (·.thread)).Perm _
    rw [← List.map_append, List.takeWhile_append_dropWhile]
    exact .refl _
  refine settled.rouse .alarm here (fun other ne => ?_) (Stage.blocked_foldl_rouse part.1 part.2)
  cases other with
  | queue other => rfl
  | condition index => rfl
  | alarm => exact absurd rfl ne

theorem Joins.shift {index : Nat} (joins : scene.Joins index progress after) :
    scene.stage.Shift progress after.stage := by
  cases joins with
  | late => exact .stays (by simp)
  | waits runs => exact @Stage.Shift.sleeps scene.stage _ [] _ runs List.nodup_nil (by simp)

theorem Joins.settled {index : Nat} (joins : scene.Joins index progress after)
    (sane : scene.stage.Sane) (settled : scene.SettledBut strays) : after.SettledBut strays := by
  have marked : (scene.joined index).SettledBut strays := settled.congr (fun _ => rfl) fun _ => .rfl
  cases joins with
  | late => exact marked
  | waits runs made on live => exact marked.wait sane runs live

theorem Exits.shift {index : Nat} (exits : scene.Exits index after)
    (settled : scene.SettledBut strays)
    (on : ∀ owed, progress ≠ .switched owed) : scene.stage.Shift progress after.stage := by
  obtain ⟨-, -, hands, -, -⟩ := exits
  exact hands.shift settled on

theorem Exits.settled {index : Nat} (exits : scene.Exits index after) (sane : scene.stage.Sane)
    (settled : scene.SettledBut strays) : after.SettledBut strays := by
  obtain ⟨-, -, hands, live, nobody⟩ := exits
  rename_i point queue next
  have shift : scene.stage.Shift (.done .nothing) next.stage := hands.shift settled (by simp)
  have awake : ¬ next.Asleep scene.current := by
    have same : next.current = scene.current := congrArg (·.getD .idle) hands.running
    exact same ▸ current_awake (shift.sane sane)
  have closed : SettledBut strays { next with ledger := next.ledger.close point.queue } := by
    refine (settled.handsOn hands).ledger fun other => ?_
    rw [Ledger.waiters_close]
    split
    · rename_i same
      rw [same, Ledger.waiters_of_queue? live, nobody]
    · rfl
  exact (closed.dismiss awake).congr (fun _ => rfl) fun _ => .rfl

theorem Naps.shift {ticks : Int} (naps : scene.Naps ticks progress after) :
    scene.stage.Shift progress after.stage := by
  cases naps with
  | never => exact .stays (by simp)
  | sleeps runs => exact @Stage.Shift.sleeps scene.stage _ [] _ runs List.nodup_nil (by simp)

theorem Naps.settled {ticks : Int} (naps : scene.Naps ticks progress after)
    (sane : scene.stage.Sane) (settled : scene.SettledBut strays) : after.SettledBut strays := by
  cases naps with
  | never => exact settled
  | sleeps runs => exact settled.nap sane runs _

theorem Ticks.shift {tick : Nat} (ticks : scene.Ticks tick progress after)
    (settled : scene.SettledBut strays) : scene.stage.Shift progress after.stage := by
  cases ticks with
  | idle => exact wakeDue_shift settled tick (by simp)
  | thread runs => exact .yields runs

theorem Ticks.settled {tick : Nat} (ticks : scene.Ticks tick progress after)
    (sane : scene.stage.Sane) (settled : scene.SettledBut strays) : after.SettledBut strays := by
  cases ticks with
  | idle => exact settled.wakeDue tick
  | thread runs => exact settled.congr (fun _ => rfl) (sane.blocked_requeue runs)

theorem Offers.shift (offers : scene.Offers progress after) :
    scene.stage.Shift progress after.stage := by
  cases offers with
  | idle => exact .stays (by simp)
  | thread runs => exact .yields runs

theorem Offers.settled (offers : scene.Offers progress after)
    (sane : scene.stage.Sane) (settled : scene.SettledBut strays) : after.SettledBut strays := by
  cases offers with
  | idle => exact settled
  | thread runs => exact settled.congr (fun _ => rfl) (sane.blocked_requeue runs)

end

end Scene

/-! ## Requests and tasks -/

section

variable {strays : ThreadId → Prop} {room : Prop} {scene after : Scene} {request : Request}
  {progress : Progress}

theorem Request.Outcome.shift (outcome : request.Outcome room scene progress after)
    (settled : scene.SettledBut strays) : scene.stage.Shift progress after.stage := by
  cases outcome with
  | quiet plain same =>
    obtain ⟨ledger, memory, -, rfl⟩ := same
    exact .stays (by simp)
  | exit | finish | condition => exact .stays (by simp)
  | lock makes | joinPoint makes =>
    rcases makes with ⟨-, rfl⟩ | ⟨-, rfl⟩ <;> exact .stays (by simp)
  | lockAcquire made acquires => exact acquires.shift
  | lockRelease made releases => exact releases.hands.shift settled (by simp)
  | conditionWait waits => exact waits.shift settled
  | conditionWhile waits => exact waits.shift settled
  | conditionSignal calls | conditionBroadcast calls => exact calls.shift settled (by simp)
  | join joins => exact joins.shift
  | joinExit exits => exact exits.shift settled (by simp)
  | alarmWait naps => exact naps.shift
  | alarmTick ticks => exact ticks.shift settled
  | yield offers => exact offers.shift

theorem Request.Outcome.settled (outcome : request.Outcome room scene progress after)
    (sane : scene.stage.Sane) (settled : scene.SettledBut strays) : after.SettledBut strays := by
  cases outcome with
  | quiet plain same => exact settled.quiet same
  | exit | finish => exact settled.dismiss (Scene.current_awake sane)
  | lock makes => exact (settled.makes makes).congr (fun _ => rfl) fun _ => .rfl
  | lockAcquire made acquires => exact acquires.settled sane settled
  | lockRelease made releases => exact settled.handsOn releases.hands
  | condition made =>
    refine settled.congr (fun place => ?_) fun _ => .rfl
    cases place with
    | queue id => rfl
    | condition other =>
      show (((scene.conditions ++ [_])[other]?).map _).getD [] = _
      rw [List.getElem?_append]
      split
      · rfl
      · rename_i beyond
        rw [Scene.waitlist, List.getElem?_eq_none (Nat.le_of_not_lt beyond)]
        cases other - scene.conditions.length <;> rfl
    | alarm => rfl
  | conditionWait waits => exact waits.settled sane settled
  | conditionWhile waits => exact waits.settled sane settled
  | conditionSignal calls | conditionBroadcast calls => exact calls.settled settled
  | joinPoint makes =>
    refine ((settled.makes makes).ledger fun other => ?_).congr (fun _ => rfl) fun _ => .rfl
    exact Ledger.waiters_install _ _ other _
  | join joins => exact joins.settled sane settled
  | joinExit exits => exact exits.settled sane settled
  | alarmWait naps => exact naps.settled sane settled
  | alarmTick ticks => exact ticks.settled sane settled
  | yield offers => exact offers.settled sane settled

variable {task : Task}

theorem Task.Outcome.shift (outcome : task.Outcome scene progress after)
    (settled : scene.SettledBut strays) : scene.stage.Shift progress after.stage := by
  cases outcome with
  | leave | confirm => exact .stays (by simp)
  | acquire acquires => exact acquires.shift
  | recheck waits => exact waits.shift settled
  | wakeDue => exact Scene.wakeDue_shift settled _ (by simp)

theorem Task.Outcome.settled (outcome : task.Outcome scene progress after)
    (sane : scene.stage.Sane) (settled : scene.SettledBut strays) : after.SettledBut strays := by
  cases outcome with
  | leave | confirm => exact settled
  | acquire acquires => exact acquires.settled sane settled
  | recheck waits => exact waits.settled sane settled
  | wakeDue => exact settled.wakeDue _

end

/-- A call that goes on does what its tasks do, or fails. -/
theorem resume_ends {allowed : Violation → Prop}
    (usual : ∀ violation : Violation, violation.ordinary = true → allowed violation)
    {strays : ThreadId → Prop} {kernel : Kernel Uniprocessor} {scene : Scene} {owed : List Task}
    (reply : Reply) (shows : kernel.Shows scene) (sane : scene.stage.Sane)
    (settled : scene.SettledBut strays)
    (trusts : (∀ thread holder, allowed (.wokenWithoutLock thread holder)) ∨
      scene.Trusts owed) :
    Ends allowed (Kernel.resume reply owed) kernel (Resumed scene owed) := by
  induction owed generalizing reply kernel scene with
  | nil => exact .pure shows .stop
  | cons task rest ih =>
    have first := run_ends usual shows settled (trusts.imp_right And.left)
    unfold Ends at first ⊢
    unfold Kernel.resume
    -- What is left to do is gone on with from wherever the first task ends.
    split at first
    · rename_i progress kernel ok
      obtain ⟨fault, mid, shows, outcome⟩ := first
      rw [ok, ← fault]
      cases progress with
      | done reply =>
        have rest := ih reply shows ((outcome.shift settled).sane sane)
          (outcome.settled sane settled) (trusts.imp_right fun trusts => trusts.tail mid)
        exact rest.imp fun _ _ others => .next outcome others
      | switched owed => exact ⟨rfl, mid, shows, .away outcome⟩
      | finished => exact absurd outcome Task.Outcome.goes_on
    · rename_i violation kernel failed
      rw [failed]
      exact ⟨(fault_unwind rest kernel).trans first.1, first.2⟩

/-! ## Calls as a whole -/

/-- What every call does, however far it comes: the stage is sane and the scene settled afterwards,
its caller keeps the processor unless it switches away, and nobody is ended by it. -/
structure Scene.GoesBut (strays : ThreadId → Prop) (scene : Scene) (progress : Progress)
    (after : Scene) : Prop where
  sane : after.stage.Sane
  settled : after.SettledBut strays
  running : (∀ owed, progress ≠ .switched owed) ∧ after.stage.running = scene.stage.running ∨
    (∃ owed thread, progress = .switched owed ∧ scene.stage.running = some thread) ∧
      after.stage.running = none
  finished_iff : ∀ thread, after.stage.status thread = some .finished ↔
    scene.stage.status thread = some .finished

/-- What every call does where every sleeping thread waits. -/
abbrev Scene.Goes (scene : Scene) (progress : Progress) (after : Scene) : Prop :=
  scene.GoesBut (fun _ => False) progress after

section

variable {strays : ThreadId → Prop} {scene mid after : Scene} {progress : Progress}
  (sane : scene.stage.Sane)
  (settled : scene.SettledBut strays)
include sane settled

theorem Request.Outcome.goes {room : Prop} {request : Request}
    (outcome : request.Outcome room scene progress after) : scene.GoesBut strays progress after :=
  have shift := outcome.shift settled
  ⟨shift.sane sane, outcome.settled sane settled, shift.running, shift.finished_iff sane⟩

theorem Task.Outcome.goes {task : Task} (outcome : task.Outcome scene progress after) :
    scene.GoesBut strays progress after :=
  have shift := outcome.shift settled
  ⟨shift.sane sane, outcome.settled sane settled, shift.running, shift.finished_iff sane⟩

omit sane settled in
/-- A call that is done with its first tasks goes on from there. -/
theorem Scene.GoesBut.trans {reply : Reply} (first : scene.GoesBut strays (.done reply) mid)
    (others : mid.GoesBut strays progress after) : scene.GoesBut strays progress after where
  sane := others.sane
  settled := others.settled
  running := by
    rcases first.running with ⟨-, same⟩ | ⟨⟨owed, thread, switched, -⟩, -⟩
    · rw [← same]
      exact others.running
    · cases switched
  finished_iff thread := (others.finished_iff thread).trans (first.finished_iff thread)

theorem Resumed.goes {owed : List Task} (resumed : Resumed scene owed progress after) :
    scene.GoesBut strays progress after := by
  induction resumed with
  | stop =>
    exact ⟨sane, settled, .inl ⟨by simp, rfl⟩, fun _ => .rfl⟩
  | next first others ih =>
    have goes := first.goes sane settled
    exact goes.trans (ih goes.sane goes.settled)
  | away first =>
    have goes := first.goes sane settled
    exact ⟨goes.sane, goes.settled, goes.running.imp (fun stays => absurd rfl (stays.1 _))
      (fun ⟨⟨_, thread, _, runs⟩, left⟩ => ⟨⟨_, thread, rfl, runs⟩, left⟩), goes.finished_iff⟩

/-- What no part of a call changes of the stage, the call as a whole does not change. -/
theorem Resumed.keeps_stage {P : Stage → Prop} {owed : List Task}
    (resumed : Resumed scene owed progress after)
    (shifts : ∀ {stage next : Stage} {progress : Progress}, stage.Sane → stage.Shift progress next →
      P stage → P next) (holds : P scene.stage) : P after.stage := by
  induction resumed with
  | stop => exact holds
  | next first others ih =>
    have goes := first.goes sane settled
    exact ih goes.sane goes.settled (shifts sane (first.shift settled) holds)
  | away first => exact shifts sane (first.shift settled) holds

end

end Turnstile
