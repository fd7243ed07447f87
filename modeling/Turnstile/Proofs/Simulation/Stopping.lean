import Turnstile.Proofs.Simulation.Ticking

/-!
# When the clock moves and stops

What a whole call of `run_timer` comes to. For as long as the call lasts (`Lasts`) the driver has
counted right (`Lasts.keeps`), so that ticking stops at the first moment at which it may
(`Lasts.stops_iff`). From one decision to the next there is one tick (`Lasts.next_round`), so that
there is such a moment (`Lasts.ends`).

`clock_moves_and_stops` says all of this of any session.
-/

namespace Turnstile.Simulation

open Kernel Uniprocessor

variable {system : Simulation} {timer : Timer} {rest : List Code} {phase other : Phase} {n : Nat}

/-! ## While the call lasts -/

/-- The call that the first step makes is under way after `n` steps. -/
def Lasts (timer : Timer) (rest : List Code) (system : Simulation) (n : Nat) : Prop :=
  0 < n ∧ ∀ m, 0 < m → m ≤ n → ∃ phase, At timer rest (steps m system) phase

/-- Where the driver finds nobody ready, it decides. -/
theorem Dispatching.drained (session : Session system)
    (dispatching : Dispatching timer rest (steps n system))
    (driver : (steps n system).current = .idle) (nobody : (steps n system).machine.ready = [])
    (calm : (steps n system).machine.fault = none) : Deciding timer rest (steps (n + 1) system) ∧
      (steps (n + 1) system).kernel = (steps n system).kernel := by
  obtain ⟨idle, stands⟩ := dispatching
  have none : (steps n system).machine.dispatch? = none := by
    rw [dispatch?, nobody]
  have step := steps_succ_of_step (stands.step_of_driver driver rfl)
  have found : steps (n + 1) system = (steps n system).setContext (steps n system).current
      (.ofCode (.awaitTick timer idle :: rest)) := by
    rw [step]
    show (steps n system).dispatch _ _ _ _ = _
    rw [dispatch, calm, none]
  have rests := (session.steps n).poised.rests driver
  rw [found]
  exact ⟨⟨idle, stands.on, set_driver driver _ _, rests, nobody⟩, rfl⟩

theorem Lasts.succ (lasts : Lasts timer rest system n)
    (next : At timer rest (steps (n + 1) system) phase) : Lasts timer rest system (n + 1) := by
  refine ⟨Nat.succ_pos n, fun m some before => ?_⟩
  rcases Nat.eq_or_lt_of_le before with rfl | before
  · exact ⟨phase, next⟩
  · exact lasts.2 m some (Nat.le_of_lt_succ before)

section

variable (begins : Begins timer rest system)
  (quiet : ∀ tick, anyDispatches (timer.operationsAt tick) = false)
include begins quiet

omit quiet in
theorem Begins.lasts : Lasts timer rest system 1 := by
  refine ⟨Nat.one_pos, fun m some before => ?_⟩
  obtain rfl : m = 1 := by omega
  exact ⟨_, begins.keeps.stands⟩

namespace Lasts

/-- For as long as the call lasts the driver has counted right. -/
theorem keeps (lasts : Lasts timer rest system n) : ∃ phase, Keeps timer rest system n phase := by
  obtain ⟨some, all⟩ := lasts
  induction n, some using Nat.le_induction with
  | base => exact ⟨_, begins.keeps⟩
  | succ n some ih =>
    obtain ⟨phase, keeps⟩ := ih fun m after before => all m after (Nat.le_succ_of_le before)
    obtain ⟨other, stands⟩ := all (n + 1) (Nat.succ_pos n) (Nat.le_refl _)
    rcases keeps.goes_on begins.session quiet with ended | ⟨other, keeps', -⟩ | ⟨idle, -, -, stops⟩
    · cases stands.on.symm.trans ended
    · exact ⟨other, keeps'⟩
    · exact (stands.not_stops stops).elim

/-- The call goes on, or it stops, or a violation has ended the script. -/
theorem goes_on (lasts : Lasts timer rest system n) : (steps (n + 1) system).ended = true ∨
    Lasts timer rest system (n + 1) ∨ Stops rest (steps n system) (steps (n + 1) system) := by
  obtain ⟨phase, keeps⟩ := lasts.keeps begins quiet
  rcases keeps.goes_on begins.session quiet with ended | ⟨other, keeps', -⟩ | ⟨idle, -, -, stops⟩
  · exact .inl ended
  · exact .inr (.inl (lasts.succ keeps'.stands))
  · exact .inr (.inr stops)

omit quiet in
/-- Whether the clock stands still from now on, seen from outside. -/
theorem clockStops_iff {idle : Nat} (keeps : Keeps timer rest system n (.deciding idle)) :
    (steps n system).clockStops idle = true ↔
      (∀ thread, (steps n system).machine.status? thread ≠ some .blocked) ∨
        List.replicate system.idleLimit true <:+ lulls system n := by
  have distinct := (begins.session.steps n).poised.nodup_keys
  have nobody : (!(steps n system).machine.anyBlocked) = true ↔
      ∀ thread, (steps n system).machine.status? thread ≠ some .blocked := by
    rw [Bool.not_eq_true', ← Bool.not_eq_true, anyBlocked_iff distinct, not_exists]
  rw [clockStops, Bool.or_eq_true, nobody, decide_eq_true_eq, keeps.limit, keeps.counts.suffix_iff]
  rfl

/-- Ticking stops where the driver decides and nobody sleeps or the last ticks were lulls. -/
theorem stops_iff (lasts : Lasts timer rest system n) :
    Stops rest (steps n system) (steps (n + 1) system) ↔ Deciding timer rest (steps n system) ∧
      ((∀ thread, (steps n system).machine.status? thread ≠ some .blocked) ∨
        List.replicate system.idleLimit true <:+ lulls system n) := by
  obtain ⟨phase, keeps⟩ := lasts.keeps begins quiet
  constructor
  · intro stops
    rcases keeps.goes_on begins.session quiet with
      ended | ⟨other, keeps', -⟩ | ⟨idle, rfl, still, -⟩
    · have on : (steps (n + 1) system).ended = (steps n system).ended := by
        rw [stops]
        rfl
      cases (on.trans keeps.stands.on).symm.trans ended
    · exact (keeps'.stands.not_stops stops).elim
    · exact ⟨⟨idle, keeps.stands⟩, (clockStops_iff begins keeps).mp still⟩
  · rintro ⟨⟨idle, stands⟩, still⟩
    obtain rfl := stands.unique keeps.stands
    have still := (clockStops_iff begins keeps).mpr still
    have step := stands.step_of_driver (current_of_rests stands.suits.1) rfl
    rw [← steps_succ_of_step step] at step
    obtain ⟨-, ⟨other, -, moves⟩ | ⟨-, stops⟩⟩ := stands.goes_on_deciding quiet step
    · cases moves with
      | ticks goes => cases still.symm.trans goes
    · exact stops

/-- The clock stands still, or it ticks. -/
theorem clock_or_ticks (lasts : Lasts timer rest system n)
    (on : (steps (n + 1) system).ended = false) :
    (steps (n + 1) system).machine.clock = (steps n system).machine.clock ∨
      Ticks timer rest system n := by
  obtain ⟨phase, keeps⟩ := lasts.keeps begins quiet
  rcases keeps.goes_on begins.session quiet with ended | ⟨other, keeps', moves | ⟨-, -, same⟩⟩ |
    ⟨idle, -, -, stops⟩
  · cases on.symm.trans ended
  · cases moves with
    | dispatches same => exact .inl same
    | drains kernel => exact .inl (congrArg (·.machine.clock) kernel)
    | ticks goes machine => exact .inr (keeps.ticks begins.session goes keeps'.stands machine).1
    | performs same => exact .inl same
    | closes machine =>
      rw [machine]
      exact .inl (congrArg (·.clock) (stage_setInterrupts _ _))
  · rw [same]
    exact .inl rfl
  · rw [stops]
    exact .inl rfl

/-- While a callback is under way the driver keeps the processor and the clock stands still, and
when it is over the driver has its flag back. -/
theorem during (lasts : Lasts timer rest system n) (calling : Calling timer rest (steps n system)) :
    ∃ first, During timer rest system first n ∧ ((steps n system).closing = true →
      Dispatching timer rest (steps (n + 1) system) ∧
        (steps (n + 1) system).machine.interrupts = (steps first system).machine.interrupts) := by
  obtain ⟨phase, keeps⟩ := lasts.keeps begins quiet
  obtain ⟨code, idle, saved, stands⟩ := calling
  obtain rfl := stands.unique keeps.stands
  obtain ⟨-, first, during, flag⟩ := keeps.called _ _ _ rfl
  refine ⟨first, during, fun closes => ?_⟩
  obtain ⟨idle', saved', same⟩ := stands.closing_iff.mp closes
  cases same
  have driver := current_of_rests stands.suits.1
  have step := steps_succ_of_step (stands.step_of_driver driver rfl)
  rw [step, flag]
  refine ⟨⟨_, stands.on, set_driver driver _ _, trivial⟩, ?_⟩
  exact interrupts_setInterrupts _ saved

/-! ## The end -/

section

variable (calm : ∀ n, Lasts timer rest system n → (steps (n + 1) system).ended = false)
include calm

/-- A dispatching driver comes to decide, unless it dispatches forever. -/
theorem reaches_deciding (lasts : Lasts timer rest system n)
    (dispatching : Dispatching timer rest (steps n system)) {later : Nat} (le : n ≤ later)
    (drains : ¬ Dispatching timer rest (steps later system)) :
    ∃ m, Lasts timer rest system m ∧ Deciding timer rest (steps m system) ∧
      lulls system m = lulls system n := by
  -- by induction on how many steps are left until it does not dispatch any more
  induction gap : later - n generalizing n with
  | zero =>
    obtain rfl : n = later := by omega
    exact absurd dispatching drains
  | succ gap ih =>
    obtain ⟨idle, stands⟩ := dispatching
    obtain ⟨phase, keeps⟩ := lasts.keeps begins quiet
    obtain rfl := stands.unique keeps.stands
    have opened := stands.lulls_succ (by simp)
    have again : Dispatching timer rest (steps (n + 1) system) → ∃ m, Lasts timer rest system m ∧
        Deciding timer rest (steps m system) ∧ lulls system m = lulls system n := by
      intro dispatching
      obtain ⟨idle, stands⟩ := dispatching
      rw [← opened]
      exact ih (lasts.succ stands) ⟨idle, stands⟩ (by omega) (by omega)
    rcases keeps.goes_on begins.session quiet with ended | ⟨other, keeps', moves | ⟨-, rfl, -⟩⟩ |
      ⟨idle', other, -⟩
    · cases (calm n lasts).symm.trans ended
    · cases moves with
      | dispatches => exact again ⟨_, keeps'.stands⟩
      | drains => exact ⟨n + 1, lasts.succ keeps'.stands, ⟨_, keeps'.stands⟩, opened⟩
    · exact again ⟨_, keeps'.stands⟩
    · cases other

/-- A callback comes to its end, and its tick is closed. -/
theorem reaches_closing {code : List Code} {idle : Nat} {saved : Bool}
    (lasts : Lasts timer rest system n)
    (stands : At timer rest (steps n system) (.calling code idle saved)) :
    ∃ m, n ≤ m ∧ Lasts timer rest system m ∧ Dispatching timer rest (steps m system) ∧
      (lulls system m).length = (lulls system n).length + 1 := by
  -- by induction on what is still to do
  induction cost : callCost code using Nat.strong_induction_on generalizing n code with
  | _ cost ih =>
    obtain ⟨phase, keeps⟩ := lasts.keeps begins quiet
    obtain rfl := stands.unique keeps.stands
    rcases keeps.goes_on begins.session quiet with
      ended | ⟨other, keeps', moves | ⟨⟨idle', other⟩, -⟩⟩ |
      ⟨idle', other, -⟩
    · cases (calm n lasts).symm.trans ended
    · cases moves with
      | @performs _ more _ _ same less =>
        obtain ⟨m, le, lasts', dispatching, grown⟩ :=
          ih _ (cost ▸ less) (lasts.succ keeps'.stands) keeps'.stands rfl
        rw [stands.lulls_succ (Phase.calling_ne_of_cost less)] at grown
        exact ⟨m, by omega, lasts', dispatching, grown⟩
      | closes =>
        refine ⟨n + 1, by omega, lasts.succ keeps'.stands, ⟨_, keeps'.stands⟩, ?_⟩
        rw [stands.lulls_succ_of_closing, List.length_append]
        rfl
    · cases other
    · cases other

variable (drains : ∀ n, ∃ later, n ≤ later ∧ ¬ Dispatching timer rest (steps later system))
include drains

/-- From one decision to the next there is one tick, if the clock does not stop. -/
theorem next_round (lasts : Lasts timer rest system n)
    (deciding : Deciding timer rest (steps n system))
    (goes : ¬ Stops rest (steps n system) (steps (n + 1) system)) :
    ∃ m, Lasts timer rest system m ∧ Deciding timer rest (steps m system) ∧
      (lulls system m).length = (lulls system n).length + 1 := by
  obtain ⟨idle, stands⟩ := deciding
  obtain ⟨phase, keeps⟩ := lasts.keeps begins quiet
  obtain rfl := stands.unique keeps.stands
  have opened := stands.lulls_succ (by simp)
  rcases keeps.goes_on begins.session quiet with
    ended | ⟨other, keeps', moves | ⟨⟨idle', other⟩, -⟩⟩ |
    ⟨idle', -, -, stops⟩
  · cases (calm n lasts).symm.trans ended
  · cases moves with
    | ticks =>
      obtain ⟨m, -, lasts', dispatching, grown⟩ :=
        (lasts.succ keeps'.stands).reaches_closing begins quiet calm keeps'.stands
      obtain ⟨later, le, drained⟩ := drains m
      obtain ⟨l, lasts', deciding, same⟩ :=
        lasts'.reaches_deciding begins quiet calm dispatching le drained
      exact ⟨l, lasts', deciding, by rw [same, grown, opened]⟩
  · cases other
  · exact absurd stops goes

/-- Ticking stops if there are not more than so many ticks. -/
theorem ends {bound : Nat}
    (few : ∀ n, Lasts timer rest system n → (lulls system n).length ≤ bound) :
    ∃ n, Lasts timer rest system n ∧ Stops rest (steps n system) (steps (n + 1) system) := by
  have from_deciding : ∀ n, Lasts timer rest system n → Deciding timer rest (steps n system) →
      ∃ n, Lasts timer rest system n ∧ Stops rest (steps n system) (steps (n + 1) system) := by
    intro n lasts deciding
    -- by induction on how many ticks there may still be
    induction left : bound - (lulls system n).length generalizing n with
    | zero =>
      refine Classical.byContradiction fun never => ?_
      obtain ⟨m, lasts', -, grown⟩ := lasts.next_round begins quiet calm drains deciding
        fun stops => never ⟨n, lasts, stops⟩
      have := few m lasts'
      omega
    | succ left ih =>
      by_cases stops : Stops rest (steps n system) (steps (n + 1) system)
      · exact ⟨n, lasts, stops⟩
      · obtain ⟨m, lasts', deciding', grown⟩ :=
          lasts.next_round begins quiet calm drains deciding stops
        exact ih m lasts' deciding' (by omega)
  obtain ⟨later, le, drained⟩ := drains 1
  obtain ⟨m, lasts, deciding, -⟩ := begins.lasts.reaches_deciding begins quiet calm
    ⟨_, begins.keeps.stands⟩ le drained
  exact from_deciding m lasts deciding

end

end Lasts

end

/-- The clock moves while the driver is in `run_timer`, and stops, as follows. For as long as the
call lasts it goes on from step to step unless it stops or a violation ends the script. Where the
driver finds nobody ready it decides, and the clock then shows how many ticks have been closed;
ticking stops there, the machine being as it is, exactly if nobody sleeps or each of the last
`idleLimit` callbacks left nobody ready, and then the call is over. The clock moves in no other step
than those by which a callback is entered, with the tick after the last one, nobody ready, somebody
asleep and the driver's interrupts off. While a callback is under way the driver keeps the processor
and the clock stands still, and when it is over the driver has the flag back that it had before. So
there are never more than `idleLimit` callbacks in a row that leave nobody ready. If neither a
violation nor a thread that is always ready stands in the way, and at most `count` callbacks leave
somebody ready, the call ends, after at most `(count + 1) * idleLimit + count` ticks. -/
theorem clock_moves_and_stops (begins : Begins timer rest system)
    (quiet : ∀ tick, anyDispatches (timer.operationsAt tick) = false) :
    Lasts timer rest system 1 ∧
    (∀ n, Lasts timer rest system n →
      ((steps (n + 1) system).ended = true ∨ Lasts timer rest system (n + 1) ∨
        Stops rest (steps n system) (steps (n + 1) system)) ∧
      (Dispatching timer rest (steps n system) → (steps n system).current = .idle →
        (steps n system).machine.ready = [] → (steps n system).machine.fault = none →
        Deciding timer rest (steps (n + 1) system) ∧
          (steps (n + 1) system).kernel = (steps n system).kernel) ∧
      (Deciding timer rest (steps n system) →
        (steps n system).machine.clock = system.machine.clock + (lulls system n).length) ∧
      (Stops rest (steps n system) (steps (n + 1) system) ↔ Deciding timer rest (steps n system) ∧
        ((∀ thread, (steps n system).machine.status? thread ≠ some .blocked) ∨
          List.replicate system.idleLimit true <:+ lulls system n)) ∧
      (Stops rest (steps n system) (steps (n + 1) system) → ¬ Lasts timer rest system (n + 1)) ∧
      ((steps (n + 1) system).ended = false →
        (steps (n + 1) system).machine.clock = (steps n system).machine.clock ∨
          Ticks timer rest system n) ∧
      (Calling timer rest (steps n system) → ∃ first, During timer rest system first n ∧
        ((steps n system).closing = true → Dispatching timer rest (steps (n + 1) system) ∧
          (steps (n + 1) system).machine.interrupts = (steps first system).machine.interrupts)) ∧
      ¬ List.replicate (system.idleLimit + 1) true <:+: lulls system n) ∧
    ∀ count, (∀ n, Lasts timer rest system n → (steps (n + 1) system).ended = false) →
      (∀ n, ∃ later, n ≤ later ∧ ¬ Dispatching timer rest (steps later system)) →
      (∀ n, Lasts timer rest system n → (lulls system n).count false ≤ count) →
      ∃ n, Lasts timer rest system n ∧ Stops rest (steps n system) (steps (n + 1) system) ∧
        (steps (n + 1) system).machine.clock = system.machine.clock + (lulls system n).length ∧
        (lulls system n).length ≤ (count + 1) * system.idleLimit + count := by
  have shows : ∀ n, Lasts timer rest system n → Deciding timer rest (steps n system) →
      (steps n system).machine.clock = system.machine.clock + (lulls system n).length := by
    intro n lasts deciding
    obtain ⟨phase, keeps⟩ := lasts.keeps begins quiet
    obtain ⟨idle, stands⟩ := deciding
    obtain rfl := stands.unique keeps.stands
    exact keeps.clock
  refine ⟨begins.lasts, fun n lasts => ?_, fun count calm drains few => ?_⟩
  · obtain ⟨phase, keeps⟩ := lasts.keeps begins quiet
    refine ⟨lasts.goes_on begins quiet, Dispatching.drained begins.session, shows n lasts,
      lasts.stops_iff begins quiet,
      fun stops later => ?_, lasts.clock_or_ticks begins quiet, lasts.during begins quiet,
      keeps.counts.short⟩
    obtain ⟨phase, stands⟩ := later.2 (n + 1) (Nat.succ_pos n) (Nat.le_refl _)
    exact stands.not_stops stops
  · have bound : ∀ n, Lasts timer rest system n →
        (lulls system n).length ≤ (count + 1) * system.idleLimit + count := by
      intro n lasts
      obtain ⟨phase, keeps⟩ := lasts.keeps begins quiet
      have := few n lasts
      -- between two callbacks that leave somebody ready are at most `idleLimit` that do not
      calc (lulls system n).length
          ≤ ((lulls system n).count false + 1) * system.idleLimit + (lulls system n).count false :=
            keeps.counts.length_le_mul
        _ ≤ (count + 1) * system.idleLimit + count :=
            Nat.add_le_add (Nat.mul_le_mul_right _ (Nat.succ_le_succ this)) this
    obtain ⟨n, lasts, stops⟩ := Lasts.ends begins quiet calm drains bound
    obtain ⟨deciding, -⟩ := (lasts.stops_iff begins quiet).mp stops
    refine ⟨n, lasts, stops, ?_, bound n lasts⟩
    rw [← shows n lasts deciding, stops]
    rfl

/-- One thread that sleeps for two ticks, and a driver that lets the clock tick. -/
def oneSleeper : Simulation :=
  steps 1 (start .default 2 [.spawn [.request (.alarmWait 2)], .runTimer true []])

/-- The first tick is a lull and the second wakes the thread, which ends. With it ticking stops. -/
theorem clock_moves_and_stops_woken : ∃ n, Lasts ⟨true, []⟩ [] oneSleeper n ∧
    Stops [] (steps n oneSleeper) (steps (n + 1) oneSleeper) ∧ lulls oneSleeper n = [true, false] ∧
    (steps (n + 1) oneSleeper).machine.clock = 2 := by
  have begins : Begins ⟨true, []⟩ [] oneSleeper := ⟨.steps (.start _ _ _) 1, rfl, rfl, rfl⟩
  have still : (steps 16 oneSleeper).step.isNone = true := by decide +kernel
  have stuck : ∀ n, 16 ≤ n → steps n oneSleeper = steps 16 oneSleeper := fun n late =>
    steps_of_end (Option.isNone_iff_eq_none.mp still) late
  have on : (steps 16 oneSleeper).ended = false := by decide +kernel
  have finished : ((steps 16 oneSleeper).contexts.get? .idle).map (·.code.isEmpty) = some true := by
    decide +kernel
  have away : ∀ phase, ¬ At ⟨true, []⟩ [] (steps 16 oneSleeper) phase := by
    intro phase stands
    rw [stands.code] at finished
    have longer := @Phase.length_lt_code ⟨true, []⟩ [] phase
    have empty : phase.code ⟨true, []⟩ [] = [] := by simpa [Context.ofCode] using finished
    rw [empty] at longer
    exact Nat.lt_irrefl _ longer
  have early : ∀ n, Lasts ⟨true, []⟩ [] oneSleeper n → n < 16 := by
    intro n lasts
    refine Nat.lt_of_not_le fun late => ?_
    obtain ⟨phase, stands⟩ := lasts.2 16 (by decide) late
    exact away phase stands
  have calm : ∀ n, Lasts ⟨true, []⟩ [] oneSleeper n → (steps (n + 1) oneSleeper).ended = false :=
    fun n lasts => on_of_later (early n lasts) on
  have drains : ∀ n, ∃ later, n ≤ later ∧ ¬ Dispatching ⟨true, []⟩ [] (steps later oneSleeper) := by
    intro n
    refine ⟨max n 16, Nat.le_max_left _ _, ?_⟩
    rintro ⟨idle, stands⟩
    rw [stuck _ (Nat.le_max_right _ _)] at stands
    exact away _ stands
  have counted : ∀ n < 16, (lulls oneSleeper n).count false ≤ 1 := by decide +kernel
  obtain ⟨-, each, ends⟩ := clock_moves_and_stops begins fun _ => rfl
  obtain ⟨n, lasts, stops, clock, -⟩ := ends 1 calm drains fun n lasts => counted n (early n lasts)
  have busy : ∀ n < 16, ((steps n oneSleeper).contexts.get? .idle).map (·.code.isEmpty) =
    some false := by
    decide +kernel
  obtain rfl : n = 15 := by
    refine Nat.le_antisymm (Nat.le_of_lt_succ (early n lasts)) (Nat.le_of_not_lt fun sooner => ?_)
    have code := busy (n + 1) (Nat.succ_lt_succ sooner)
    rw [stops.code] at code
    cases code
  have two : lulls oneSleeper 15 = [true, false] := by decide +kernel
  refine ⟨15, lasts, stops, two, ?_⟩
  rw [clock, two]
  rfl

end Turnstile.Simulation
