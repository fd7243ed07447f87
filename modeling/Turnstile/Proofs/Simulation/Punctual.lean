import Turnstile.Proofs.Simulation.Timely

/-!
# Sleeping for some ticks

What a whole run says of those who sleep for the alarm.

* **A call of `alarmWait`** for some ticks switches away and puts a sleeper on the alarm's list
  (`Clockwork.begins`). It owes nothing then but to leave, so that it returns as soon as its thread
  has the processor again (`Clockwork.absent`).
* **A sleeper** dozes until the alarm handles its tick and readies its thread. The thread is ready
  from then on, and while somebody is ready no time passes (`Clockwork.slept`).
* **Two sleepers** of one tick are readied by one step, the first to come in front
  (`Clockwork.together`).

`sleeps_end_on_time` says this of all scripts that leave the clock to the alarm and attend to it.
-/

namespace Turnstile

open Kernel

namespace Simulation

variable {system : Simulation} {thread : ThreadId} {ticks : Int} {rest : List Code}
  {count first last m n : Nat}

/-- Every step of a run is a timely one. -/
structure Clockwork (system : Simulation) (count : Nat) : Prop where
  timely : ∀ m ≤ count, (steps m system).Timely
  moves : ∀ m < count, AdvanceBy Request.Reach Request.timely (steps m system)
    (steps (m + 1) system) ∨
    (steps m system).step = none ∧ steps (m + 1) system = steps m system

/-- A run without violations of a timely system is timely throughout. -/
theorem clockwork_of_untroubled (timely : system.Timely)
    (calm : (steps count system).untroubled = true) : system.Clockwork count := by
  have moves : ∀ m < count, _ := fun m =>
    moves_of_untroubled_by calm performs_timely timely.orderly
  refine ⟨fun m => ?_, moves⟩
  induction m with
  | zero => exact fun _ => timely
  | succ m ih =>
    intro h
    have before := ih (Nat.le_of_lt h)
    have orderly := orderly_of_untroubled_by calm performs_timely timely.orderly h
    rcases moves m h with advance | ⟨-, same⟩
    · exact before.advances advance orderly
    · rw [same]
      exact before

/-- At the beginning nobody sleeps. -/
theorem timely_start (config : Config) (idleLimit : Nat) {script : List Operation}
    (kept : keepAll Request.timely true script = true)
    (attended : attendedAll false true script = true) : (start config idleLimit script).Timely where
  orderly := orderlyBut_start config idleLimit kept
  sorted := .empty
  schedule := .between (attentive_ofScript.mpr attended)
  hushed who name owed code there := by
    have there : (Directory.empty.set ThreadId.idle (Context.ofScript script)).get? who = _ := there
    rw [Directory.get?_set] at there
    split at there <;> cases there
  manned thread here := by
    obtain ⟨status, known, -⟩ := here
    cases known

/-- The sleeper that a call of `alarmWait` is. -/
def sleeperOf (system : Simulation) (thread : ThreadId) (ticks : Int) : Sleeper :=
  { wakeAt := system.machine.clock + ticks.toNat
    arrival := system.kernel.sleepers.arrivals + 1
    thread }

/-- What becomes of a call of `alarmWait` in step `first` that has switched away: its thread sleeps
to the end, and the clock does not get past its tick; or it sleeps until the alarm handles that
tick, which readies it, and is awake from then on while the clock stands still. -/
def Slept (system : Simulation) (sleeper : Sleeper) (first n : Nat) : Prop :=
  (∀ k, first < k → k ≤ n → (steps k system).Dozes sleeper) ∨
    ∃ m, first < m ∧ m < n ∧ (∀ k, first < k → k ≤ m → (steps k system).Dozes sleeper) ∧
      (steps m system).Wakes sleeper (steps (m + 1) system) ∧
      ∀ k, m < k → k ≤ n → (steps k system).machine.status? sleeper.thread ≠ some .blocked ∧
        (steps k system).machine.clock = sleeper.wakeAt

/-- What becomes of two sleepers of one tick, the second of which comes in step `second`: both sleep
to the end, or the alarm readies both in one step, the first in front. -/
def Together (system : Simulation) (sleeper other : Sleeper) (second n : Nat) : Prop :=
  (∀ k, second < k → k ≤ n → (steps k system).Dozes sleeper ∧ (steps k system).Dozes other) ∨
    ∃ m, second < m ∧ m < n ∧ (steps m system).Wakes sleeper (steps (m + 1) system) ∧
      (steps m system).Wakes other (steps (m + 1) system) ∧
      [sleeper.thread, other.thread].Sublist (steps m system).due

namespace Clockwork

variable (run : system.Clockwork count)
include run

theorem step_of_calls (h : m < count) {request : Request}
    (caller : (steps m system).current = thread)
    (calls : (steps m system).contexts.get? thread =
      some (.ofCode (.operation (.request request) :: rest))) :
    ∃ progress scene, Request.Reach ((steps m system).kernel.tables.queues.size < 4294967296)
        (steps m system).kernel.scene request progress scene ∧
      Lands (steps m system) request.name rest scene progress (steps (m + 1) system) := by
  rw [← caller] at calls
  rcases run.moves m h with advance | ⟨stuck, -⟩
  · exact advance.of_calls calls
  · have step := Simulation.step_of_calls (run.timely m (Nat.le_of_lt h)).orderly.on calls
    cases stuck.symm.trans step

/-- A call for some ticks puts its thread to sleep. -/
theorem begins (positive : 0 < ticks) (h : first < count)
    (caller : (steps first system).current = thread)
    (calls : (steps first system).contexts.get? thread =
      some (.ofCode (.operation (.request (.alarmWait ticks)) :: rest)))
    (bound : ((steps first system).sleeperOf thread ticks).wakeAt ≤ greatestTick) :
    (∃ saved, (steps (first + 1) system).contexts.get? thread =
      some { call := some (Request.name (.alarmWait ticks), [.leave saved]), code := rest }) ∧
    (steps (first + 1) system).Dozes ((steps first system).sleeperOf thread ticks) := by
  obtain ⟨progress, scene, reach, lands⟩ := run.step_of_calls h caller calls
  cases reach with
  | plain outcome =>
    cases outcome with
    | quiet plain => cases plain
    | alarmWait naps =>
      cases naps with
      | never none => omega
      | @sleeps runner saved runs =>
        obtain rfl : runner = thread := (Scene.current_of_running runs).symm.trans caller
        have tick : min ((steps first system).kernel.scene.stage.clock + ticks.toNat) greatestTick =
            ((steps first system).sleeperOf runner ticks).wakeAt := Nat.min_eq_left bound
        have sleepers := lands.sleepers
        have clock := lands.clock
        rw [tick] at sleepers
        have listed : (steps first system).sleeperOf runner ticks ∈
            (steps (first + 1) system).kernel.sleepers.sleepers := by
          rw [sleepers]
          exact SleepQueue.mem_place.mpr (.inl rfl)
        refine ⟨?_, listed, (run.timely (first + 1) h).asleep listed, .inl ?_⟩
        · cases lands with
          | switched shows contexts =>
            exact ⟨saved, by rw [contexts, Directory.get?_set, if_pos caller]⟩
        · rw [clock]
          show (steps first system).machine.clock < (steps first system).machine.clock + ticks.toNat
          omega

/-- A call that has nothing to do but to leave returns as soon as its thread has the processor. -/
theorem leaves (h : m ≤ count) {name : String} {owed : List Task} (there : ∃ saved,
      (steps m system).contexts.get? thread =
        some { call := some (name, [.leave saved]), code := rest })
    (later : (steps (m + 1) system).contexts.get? thread =
      some { call := some (name, owed), code := rest }) : (steps m system).current ≠ thread := by
  rintro rfl
  obtain ⟨saved, there⟩ := there
  have back : (steps (m + 1) system).contexts.get? (steps m system).current =
    some (.ofCode rest) := by
    rw [steps_succ, step_of_call (run.timely m h).orderly.on there]
    exact (Directory.get?_set _ _ _ _).trans (if_pos rfl)
  cases back.symm.trans later

section

variable (underway : Underway system thread (.alarmWait ticks) rest first n) (positive : 0 < ticks)
  (bound : ((steps first system).sleeperOf thread ticks).wakeAt ≤ greatestTick) (h : n ≤ count)
include underway positive bound h

/-- Until it returns, a call of `alarmWait` has nothing to do but to leave. -/
theorem owes (late : first < m) (before : m ≤ n) : ∃ saved, (steps m system).contexts.get? thread =
    some { call := some (Request.name (.alarmWait ticks), [.leave saved]), code := rest } := by
  have order := underway.order
  have begun : ∀ owed, (steps (first + 1) system).contexts.get? thread =
      some { call := some (Request.name (.alarmWait ticks), owed), code := rest } →
        ∃ saved, owed = [Task.leave saved] := by
    intro owed there
    obtain ⟨saved, away⟩ := (run.begins positive (by omega) underway.caller underway.calls bound).1
    cases away.symm.trans there
    exact ⟨saved, rfl⟩
  obtain ⟨owed, there, saved, rfl⟩ :=
    underway.holds (P := fun _ owed => ∃ saved, owed = [.leave saved])
    begun (fun k owed owed' late early there later leaves => by
      obtain ⟨saved, rfl⟩ := leaves
      cases call_of_off there (run.leaves (by omega) ⟨saved, there⟩ later) later
      exact ⟨saved, rfl⟩) late before
  exact ⟨saved, there⟩

/-- Its thread does not have the processor before it returns. -/
theorem absent (late : first < m) (before : m < n) : (steps m system).current ≠ thread := by
  obtain ⟨owed, later⟩ := underway.within (m + 1) (by omega) before
  exact run.leaves (by omega) (run.owes underway positive bound h late (Nat.le_of_lt before)) later

/-- While its thread is awake, no time passes. -/
theorem awake (late : first < m) (before : m < n)
    (up : (steps m system).machine.status? thread = some .ready ∨
      (steps m system).current = thread) :
    ((steps (m + 1) system).machine.status? thread = some .ready ∨
        (steps (m + 1) system).current = thread) ∧
      (steps (m + 1) system).machine.clock = (steps m system).machine.clock := by
  have timely := run.timely m (by omega)
  have waits := up.resolve_right (run.absent underway positive bound h late before)
  rcases run.moves m (by omega) with advance | ⟨-, same⟩
  · exact ⟨timely.ready advance waits, timely.clock_of_ready (timely.schedule_beat advance).2 waits⟩
  · rw [same]
    exact ⟨.inl waits, rfl⟩

/-- What becomes of a call of `alarmWait`. -/
theorem slept : system.Slept ((steps first system).sleeperOf thread ticks) first n := by
  have order := underway.order
  have begun := (run.begins positive (by omega) underway.caller underway.calls bound).2
  generalize sleeper_eq : (steps first system).sleeperOf thread ticks = sleeper at begun
  have same : sleeper.thread = thread := by rw [← sleeper_eq]; rfl
  let up := fun k => ((steps k system).machine.status? thread = some .ready ∨
    (steps k system).current = thread) ∧ (steps k system).machine.clock = sleeper.wakeAt
  have stays : ∀ k, first < k → k < n → up k → up (k + 1) := fun k late early ⟨awake, clock⟩ =>
    have goes := run.awake underway positive bound h late early awake
    ⟨goes.1, goes.2.trans clock⟩
  have goes : ∀ k, first < k → k < n → (steps k system).Dozes sleeper →
      (steps (k + 1) system).Dozes sleeper ∨
        (steps k system).Wakes sleeper (steps (k + 1) system) ∧ up (k + 1) := by
    intro k late early dozes
    rcases run.moves k (by omega) with advance | ⟨-, stuck⟩
    · refine ((run.timely k (by omega)).dozes advance (run.timely (k + 1) (by omega))
        dozes).imp_right ?_
      exact fun ⟨wakes, clock, ready⟩ => ⟨wakes, .inl (same ▸ ready), clock⟩
    · rw [stuck]
      exact .inl dozes
  refine (phases order begun goes stays).imp_right ?_
  rintro ⟨m, late, early, wakes, dozed, since⟩
  refine ⟨m, late, early, dozed, wakes, fun k late early => ?_⟩
  obtain ⟨awake, clock⟩ := since k late early
  refine ⟨?_, clock⟩
  rw [same]
  rcases awake with ready | acts
  · rw [ready]
    exact nofun
  · rw [← acts]
    exact Scene.current_awake (run.timely k (by omega)).orderly.sane

omit underway positive bound in
/-- A run does not end before the tick that the clock shows has been handled. -/
theorem early_of_end (rests : (steps n system).step = none) {sleeper : Sleeper}
    (dozes : (steps n system).Dozes sleeper) : (steps n system).machine.clock < sleeper.wakeAt := by
  refine dozes.early.resolve_right fun ⟨_, pending⟩ => ?_
  unfold Pending at pending
  rw [(run.timely n h).duties_of_end rests] at pending
  cases pending

/-- What becomes of two calls of `alarmWait` that are due at the same tick. -/
theorem together {thread' : ThreadId} {ticks' : Int} {rest' : List Code} {second : Nat}
    (order : first < second)
    (underway' : Underway system thread' (.alarmWait ticks') rest' second n)
    (positive' : 0 < ticks')
    (same : ((steps second system).sleeperOf thread' ticks').wakeAt =
      ((steps first system).sleeperOf thread ticks).wakeAt) :
    system.Together ((steps first system).sleeperOf thread ticks)
      ((steps second system).sleeperOf thread' ticks') second n := by
  have bound' := same.trans_le bound
  have late : ((steps second system).sleeperOf thread' ticks').wakeAt =
    (steps second system).machine.clock + ticks'.toNat := rfl
  have later : ((steps second system).sleeperOf thread' ticks').arrival =
    (steps second system).kernel.sleepers.arrivals + 1 := rfl
  have one := run.slept underway positive bound h
  have two := run.slept underway' positive' bound' h
  generalize (steps first system).sleeperOf thread ticks = sleeper at same one ⊢
  generalize (steps second system).sleeperOf thread' ticks' = other at same two late later ⊢
  -- A step that wakes one of them wakes the other if it sleeps.
  have never : ∀ k ≤ n, ∀ {s s' : Sleeper}, s'.wakeAt = s.wakeAt →
      (steps k system).Wakes s (steps (k + 1) system) → (steps k system).Dozes s' →
      ¬ (steps (k + 1) system).Dozes s' := fun k _ _ _ same wakes dozes =>
    (run.timely k (by omega)).wakes_all wakes dozes same
  rcases one with dozed | ⟨m, after, before, dozed, wakes, since⟩ <;>
    rcases two with dozed' | ⟨m', after', before', dozed', wakes', since'⟩
  · exact .inl fun k after before => ⟨dozed k (by omega) before, dozed' k after before⟩
  · exact absurd (dozed (m' + 1) (by omega) before')
      (never m' (by omega) same.symm wakes' (dozed m' (by omega) (by omega)))
  all_goals
    -- The second call was made before the clock showed the tick.
    have early : second < m := by
      by_contra past
      have clock : (steps second system).machine.clock = sleeper.wakeAt := by
        rcases Nat.eq_or_lt_of_le (Nat.le_of_not_lt past) with rfl | past
        · exact wakes.clock
        · exact (since second past (Nat.le_of_lt underway'.order)).2
      omega
  · exact absurd (dozed' (m + 1) (by omega) before)
      (never m (by omega) same wakes (dozed' m early (by omega)))
  · rcases Nat.lt_trichotomy m m' with less | rfl | more
    · exact absurd (dozed' (m + 1) (by omega) less)
        (never m (by omega) same wakes (dozed' m early (by omega)))
    · have timely := run.timely m (by omega)
      have first_in : sleeper.arrival ≤ (steps second system).kernel.sleepers.arrivals :=
        (run.timely second (by omega)).sorted.arrived _ (dozed second order (by omega)).listed
      exact .inr ⟨m, early, before, wakes, wakes',
        timely.wakes_in_order (dozed m after (Nat.le_refl m))
          (dozed' m early (Nat.le_refl m)) (by omega)
          same wakes.clock⟩
    · exact absurd (dozed (m' + 1) (by omega) more)
        (never m' (by omega) same.symm wakes' (dozed m' (by omega) (by omega)))

end

/-- When a call of `alarmWait` returns, the clock shows its tick. -/
theorem returned (returns : Returns system thread (.alarmWait ticks) rest first last)
    (positive : 0 < ticks)
    (bound : ((steps first system).sleeperOf thread ticks).wakeAt ≤ greatestTick)
    (h : last < count) :
    first < last ∧
      (steps last system).machine.clock = ((steps first system).sleeperOf thread ticks).wakeAt ∧
      (steps (last + 1) system).machine.clock =
        ((steps first system).sleeperOf thread ticks).wakeAt := by
  have order := returns.order
  have later : first < last := by
    refine Nat.lt_of_le_of_ne order ?_
    rintro rfl
    obtain ⟨saved, away⟩ := (run.begins positive h returns.caller returns.calls bound).1
    cases away.symm.trans returns.back
  have timely := run.timely last (Nat.le_of_lt h)
  have acts := returns.acts
  have now : (steps last system).machine.clock =
      ((steps first system).sleeperOf thread ticks).wakeAt := by
    rcases run.slept (returns.underway later) positive bound (Nat.le_of_lt h) with
      dozed | ⟨m, -, before, -, -, since⟩
    · have asleep := (dozed last later (Nat.le_refl last)).asleep
      have awake : (steps last system).machine.status? (steps last system).current ≠
        some .blocked :=
        Scene.current_awake timely.orderly.sane
      rw [acts] at awake
      exact absurd asleep awake
    · exact (since last before (Nat.le_refl last)).2
  refine ⟨later, now, ?_⟩
  obtain ⟨owed, there⟩ := returns.within last later (Nat.le_refl last)
  rw [← acts] at there
  have away := timely.thread_of_call there
  rcases run.moves last h with advance | ⟨-, stuck⟩
  · cases (timely.schedule_beat advance).2 with
    | still clock => exact clock.trans now
    | ticks nobody rests => exact absurd (timely.orderly.sane.current_eq_idle_iff.mpr rests) away
    | handles handles => exact absurd handles.1 away
  · rw [stuck]
    exact now

/-- A call of `alarmWait` for no ticks returns in the step in which it is made. -/
theorem returns_at_once (none : ticks ≤ 0) (h : first ≤ count)
    (caller : (steps first system).current = thread)
    (calls : (steps first system).contexts.get? thread =
      some (.ofCode (.operation (.request (.alarmWait ticks)) :: rest))) :
    Returns system thread (.alarmWait ticks) rest first first ∧
      (steps (first + 1) system).kernel = (steps first system).kernel := by
  subst caller
  have performed : Request.perform (.alarmWait ticks) (steps first system).kernel =
      .ok (.done .nothing) (steps first system).kernel := by
    show Alarm.waitUntil ticks _ = _
    rw [Alarm.waitUntil, if_pos none]
    rfl
  have next : steps (first + 1) system = (({ steps first system with
      kernel := (steps first system).kernel }.write (steps first system).current
        (Request.name (.alarmWait ticks)) (.replied .nothing)).setContext
        (steps first system).current (.ofCode rest)) := by
    rw [steps_succ, Simulation.step_of_calls (run.timely first h).orderly.on calls]
    show carryOn _ _ _ _ _ = _
    rw [carryOn, performed]
  refine ⟨⟨Nat.le_refl first, rfl, calls, fun m late early => by omega, rfl, ?_⟩, by rw [next]; rfl⟩
  rw [next]
  exact (Directory.get?_set _ _ _ _).trans (if_pos rfl)

end Clockwork

/-! ## Sleeping as a whole -/

/-- Of a run in which every timer lets the alarm handle each tick and starts no other, the alarm is
left to that, nobody readies or lines up threads by hand, and no violation has ended any context:

* a call of `alarmWait` for some ticks, of which the clock can show the last, sleeps until the alarm
  handles that very tick, and is readied by that, once. The clock does not get past the tick before
  the call has returned, and does not stay there for good before it is readied: it shows the tick
  when the call returns;
* of two calls that are due at the same tick, the one that was made first is readied first;
* a call for no ticks returns at once, and changes nothing. -/
theorem sleeps_end_on_time (config : Config) (idleLimit : Nat) (script : List Operation)
    (kept : keepAll Request.timely true script = true)
    (attended : attendedAll false true script = true) (count : Nat)
    (calm : (steps count (start config idleLimit script)).untroubled = true) :
    let system := start config idleLimit script
    let run := fun m => steps m system
    (∀ thread ticks rest first n, 0 < ticks → n ≤ count →
      Underway system thread (.alarmWait ticks) rest first n →
      let sleeper := (run first).sleeperOf thread ticks
      sleeper.wakeAt ≤ greatestTick → system.Slept sleeper first n ∧
        ((run n).step = none → (run n).Dozes sleeper → (run n).machine.clock < sleeper.wakeAt) ∧
        ∀ thread' ticks' rest' second, 0 < ticks' → first < second →
          Underway system thread' (.alarmWait ticks') rest' second n →
          let other := (run second).sleeperOf thread' ticks'
          other.wakeAt = sleeper.wakeAt → system.Together sleeper other second n) ∧
    (∀ thread ticks rest first last, 0 < ticks → last < count →
      Returns system thread (.alarmWait ticks) rest first last →
      (run first).machine.clock + ticks.toNat ≤ greatestTick →
      first < last ∧ (run last).machine.clock = (run first).machine.clock + ticks.toNat ∧
        (run (last + 1)).machine.clock = (run first).machine.clock + ticks.toNat) ∧
    ∀ thread ticks rest first, ticks ≤ 0 → first ≤ count → (run first).current = thread →
      (run first).contexts.get? thread =
        some (.ofCode (.operation (.request (.alarmWait ticks)) :: rest)) →
      Returns system thread (.alarmWait ticks) rest first first ∧
        (run (first + 1)).kernel = (run first).kernel := by
  intro system run
  have works : system.Clockwork count :=
    clockwork_of_untroubled (timely_start config idleLimit kept attended) calm
  refine ⟨?_, ?_, ?_⟩
  · intro thread ticks rest first n positive h underway sleeper bound
    refine ⟨works.slept underway positive bound h,
      fun rests dozes => works.early_of_end h rests dozes, ?_⟩
    intro thread' ticks' rest' second positive' order underway' other same
    exact works.together underway positive bound h order underway' positive' same
  · intro thread ticks rest first last positive h returns bound
    exact works.returned returns positive bound h
  · intro thread ticks rest first none h caller calls
    exact works.returns_at_once none h caller calls

/-- Two threads that sleep for two ticks, the second of which then sleeps for none. -/
def napScript : List Operation :=
  [.spawn [.request (.alarmWait 2)],
    .spawn [.request (.alarmWait 2), .request (.alarmWait 0)],
    .runTimer true []]

def napping : Simulation := start .default 10 napScript

/-- The first thread goes to sleep in step 4 and has returned after step 16. -/
theorem napping_first : napping.Returns ⟨1⟩ (.alarmWait 2) [] 4 16 :=
  .of_inCall (by decide) (by decide +kernel) (by rfl) (by decide +kernel) (by decide +kernel)
    (by decide +kernel) (by decide +kernel)

/-- The second goes to sleep in step 6 and has returned after step 19. -/
theorem napping_second : napping.Returns ⟨2⟩ (.alarmWait 2)
    (Code.ofScript [.request (.alarmWait 0)]) 6 19 :=
  .of_inCall (by decide) (by decide +kernel) (by rfl) (by decide +kernel) (by decide +kernel)
    (by decide +kernel) (by decide +kernel)

/-- Both sleep until the clock shows 2, and are readied then in the order in which they came. -/
theorem sleeps_end_on_time_napping :
    let run := fun m => steps m napping
    let sleeper := (run 4).sleeperOf ⟨1⟩ 2
    let other := (run 6).sleeperOf ⟨2⟩ 2
    (sleeper = ⟨2, 1, ⟨1⟩⟩ ∧ napping.Slept sleeper 4 16) ∧
      (other = ⟨2, 2, ⟨2⟩⟩ ∧ napping.Together sleeper other 6 16) ∧
      ((run 16).machine.clock = 2 ∧ (run 17).machine.clock = 2) ∧
      ((run 19).machine.clock = 2 ∧ (run 20).machine.clock = 2) ∧
      napping.Returns ⟨2⟩ (.alarmWait 0) [] 20 20 ∧ (run 21).kernel = (run 20).kernel := by
  intro run sleeper other
  obtain ⟨sleeps, returns, never⟩ := sleeps_end_on_time .default 10 napScript (by decide +kernel)
    (by decide +kernel) 25 (by decide +kernel)
  have first : sleeper = ⟨2, 1, ⟨1⟩⟩ := by decide +kernel
  have second : other = ⟨2, 2, ⟨2⟩⟩ := by decide +kernel
  have bound : sleeper.wakeAt ≤ greatestTick := by
    rw [first]
    decide
  have underway := napping_first.underway (by decide)
  have underway' := (napping_second.underway (by decide)).sooner (m := 16) (by decide) (by decide)
  obtain ⟨slept, -, together⟩ := sleeps ⟨1⟩ 2 [] 4 16 (by decide) (by decide) underway bound
  have same : other.wakeAt = sleeper.wakeAt := by rw [first, second]
  obtain ⟨-, clock, clock'⟩ :=
    returns _ _ _ _ _ (by decide) (by decide) napping_first (by decide +kernel)
  obtain ⟨-, later, later'⟩ :=
    returns _ _ _ _ _ (by decide) (by decide) napping_second (by decide +kernel)
  have two : sleeper.wakeAt = 2 := by rw [first]
  exact ⟨⟨first, slept⟩, ⟨second, together _ _ _ _ (by decide) (by decide) underway' same⟩,
    ⟨clock.trans two, clock'.trans two⟩,
    ⟨later.trans (same.trans two), later'.trans (same.trans two)⟩,
    never ⟨2⟩ 0 [] 20 (by decide) (by decide) (by decide +kernel) napping_second.back⟩

/-- A thread sleeps for five ticks. Another lines it up on the queue of a lock that it holds, and
gives the lock up. -/
def lineUpScript : List Operation :=
  [.request .lock, .spawn [.request (.alarmWait 5), .request .now],
    .spawn [.request (.lockAcquire 0), .bracket [.request (.wait ⟨0⟩ (.id ⟨1⟩))],
      .request (.lockRelease 0)],
    .runTimer true []]

/-- A thread sleeps for one tick. At that tick the agenda starts another timer. -/
def nestedScript : List Operation :=
  [.spawn [.request (.alarmWait 1), .request .now],
    .runTimer true [(1, [.runTimer true []])]]

/-- Where threads are lined up by hand, or a timer is started from the agenda of another, sleeps do
not end on time, though the alarm handles every tick, nobody readies threads or handles ticks by
hand, and nothing goes wrong: five ticks end when the clock has not moved, and one tick ends when it
shows 2. -/
theorem sleeps_end_early_or_late :
    let early := start .default defaultIdleLimit lineUpScript
    let late := start .default defaultIdleLimit nestedScript
    ((keepAll Request.untimed true lineUpScript = true ∧
      attendedAll true true lineUpScript = true) ∧
      ((steps 22 early).untroubled = true ∧ (steps 22 early).step.isNone = true) ∧
      early.Returns ⟨1⟩ (.alarmWait 5) (Code.ofScript [.request .now]) 5 14 ∧
      (steps 5 early).machine.clock = 0 ∧ (steps 15 early).machine.clock = 0) ∧
    ((keepAll Request.untimed true nestedScript = true ∧
      attendedAll true true nestedScript = true) ∧
      ((steps 22 late).untroubled = true ∧ (steps 22 late).step.isNone = true) ∧
      late.Returns ⟨1⟩ (.alarmWait 1) (Code.ofScript [.request .now]) 3 12 ∧
      (steps 3 late).machine.clock = 0 ∧ (steps 13 late).machine.clock = 2) := by
  intro early late
  refine ⟨⟨⟨by decide +kernel, by decide +kernel⟩, ⟨by decide +kernel, by decide +kernel⟩, ?_,
    by decide +kernel, by decide +kernel⟩, ⟨by decide +kernel, by decide +kernel⟩,
    ⟨by decide +kernel, by decide +kernel⟩, ?_, by decide +kernel, by decide +kernel⟩
  · exact .of_inCall (by decide) (by decide +kernel) (by rfl) (by decide +kernel)
      (by decide +kernel)
      (by decide +kernel) (by decide +kernel)
  · exact .of_inCall (by decide) (by decide +kernel) (by rfl) (by decide +kernel)
      (by decide +kernel)
      (by decide +kernel) (by decide +kernel)

end Simulation

end Turnstile
