import Turnstile.Proofs.Simulation.Rounds

/-!
# Counting ticks

What the driver has counted while it is in `run_timer`. The steps of the driver that close a tick
are seen from outside (`closing`), and `lulls` lists for each tick of the call that has been closed
whether it left nobody ready.

* **The counter** that the driver carries along is the number of lulls in a row at the end of the
  list (`Counts`), and the clock shows how many ticks there were.
* **Ticks** (`Ticks`, `During`): how the machine stands when a callback is entered, and while it is
  under way.
* **Each step** keeps both (`Keeps.goes_on`).
-/

namespace Turnstile.Simulation

open Kernel Uniprocessor

/-! ## Lulls -/

/-- Whether the driver is about to close a tick. -/
def closing (system : Simulation) : Bool :=
  match system.contexts.get? .idle with
  | some { call := none, code := .endTick _ _ _ :: _ } => true
  | _ => false

/-- For each tick that has been closed after `n` steps, whether it left nobody ready. -/
def lulls (system : Simulation) : Nat → List Bool
  | 0 => []
  | n + 1 =>
    if (steps n system).closing then lulls system n ++ [(steps n system).machine.ready.isEmpty]
    else lulls system n

/-- At the end of the list are `idle` lulls in a row, and never more than `limit` were. -/
structure Counts (limit : Nat) (lulls : List Bool) (idle : Nat) : Prop where
  suffix_iff : ∀ count, List.replicate count true <:+ lulls ↔ count ≤ idle
  short : ¬ List.replicate (limit + 1) true <:+: lulls
  length_le : lulls.length ≤ lulls.count false * (limit + 1) + idle
  idle_le : idle ≤ limit

namespace Counts

variable {limit idle : Nat} {lulls : List Bool}

theorem nil (limit : Nat) : Counts limit [] 0 where
  suffix_iff count := by
    rw [List.suffix_nil, List.replicate_eq_nil_iff]
    exact Nat.le_zero.symm
  short long := by
    have := List.infix_nil.mp long
    cases this
  length_le := Nat.zero_le _
  idle_le := Nat.zero_le _

theorem suffix_snoc_iff {count : Nat} {lull : Bool} :
    List.replicate (count + 1) true <:+ lulls ++ [lull] ↔
      lull = true ∧ List.replicate count true <:+ lulls := by
  rw [List.suffix_concat_iff, List.replicate_succ']
  constructor
  · rintro (none | ⟨front, same, suffix⟩)
    · cases List.append_ne_nil_of_right_ne_nil _ (List.cons_ne_nil _ _) none
    · obtain ⟨rfl, last⟩ := List.append_inj' same rfl
      cases last
      exact ⟨rfl, suffix⟩
  · rintro ⟨rfl, suffix⟩
    exact .inr ⟨_, rfl, suffix⟩

theorem lull (counts : Counts limit lulls idle) (below : idle < limit) :
    Counts limit (lulls ++ [true]) (idle + 1) where
  suffix_iff count := by
    cases count with
    | zero => simp
    | succ count => rw [suffix_snoc_iff, counts.suffix_iff, Nat.succ_le_succ_iff, and_iff_right rfl]
  short long := by
    rcases List.infix_concat_iff.mp long with suffix | earlier
    · have := (counts.suffix_iff limit).mp (suffix_snoc_iff.mp suffix).2
      omega
    · exact counts.short earlier
  length_le := by
    have := counts.length_le
    have stirs : (lulls ++ [true]).count false = lulls.count false := by simp
    rw [stirs, List.length_append, List.length_singleton]
    omega
  idle_le := below

theorem stir (counts : Counts limit lulls idle) : Counts limit (lulls ++ [false]) 0 where
  suffix_iff count := by
    cases count with
    | zero => simp
    | succ count => simp [suffix_snoc_iff]
  short long := by
    rcases List.infix_concat_iff.mp long with suffix | earlier
    · cases (suffix_snoc_iff.mp suffix).1
    · exact counts.short earlier
  length_le := by
    have := counts.length_le
    have := counts.idle_le
    have stirs : (lulls ++ [false]).count false = lulls.count false + 1 := by simp
    rw [stirs, List.length_append, List.length_singleton, Nat.succ_mul]
    omega
  idle_le := Nat.zero_le _

/-- Between two ticks that were no lulls are at most `limit` lulls. -/
theorem length_le_mul (counts : Counts limit lulls idle) :
    lulls.length ≤ (lulls.count false + 1) * limit + lulls.count false := by
  have := counts.length_le
  have := counts.idle_le
  rw [Nat.mul_succ] at *
  rw [Nat.succ_mul]
  omega

end Counts

/-! ## A call of `run_timer` -/

/-- The driver is about to call `run_timer`. -/
structure Begins (timer : Timer) (rest : List Code) (system : Simulation) : Prop where
  session : Session system
  on : system.ended = false
  driver : system.current = .idle
  code : system.contexts.get? .idle =
    some (.ofCode (.operation (.runTimer timer.alarm timer.agenda) :: rest))

/-- The driver dispatches threads until nobody is ready. -/
def Dispatching (timer : Timer) (rest : List Code) (system : Simulation) : Prop :=
  ∃ idle, At timer rest system (.dispatching idle)

/-- The driver has the processor, nobody is ready, and it decides whether the clock ticks. -/
def Deciding (timer : Timer) (rest : List Code) (system : Simulation) : Prop :=
  ∃ idle, At timer rest system (.deciding idle)

/-- The driver performs a callback, or is about to close its tick. -/
def Calling (timer : Timer) (rest : List Code) (system : Simulation) : Prop :=
  ∃ code idle saved, At timer rest system (.calling code idle saved)

/-- Step `first` lets the clock tick and enters the callback. -/
structure Ticks (timer : Timer) (rest : List Code) (system : Simulation) (first : Nat) : Prop where
  deciding : Deciding timer rest (steps first system)
  clock : (steps (first + 1) system).machine.clock = (steps first system).machine.clock + 1
  number : (steps (first + 1) system).machine.clock =
    system.machine.clock + (lulls system first).length + 1
  driver : (steps (first + 1) system).current = .idle
  nobody : (steps (first + 1) system).machine.ready = []
  asleep : ∃ thread, (steps (first + 1) system).machine.status? thread = some .blocked
  masked : (steps (first + 1) system).machine.interrupts = false
  code : ∃ idle saved, (steps (first + 1) system).contexts.get? .idle = some (.ofCode
    (timer.callback (steps (first + 1) system).machine.clock ++ .endTick timer idle saved :: rest))

/-- The callback that step `first` enters is under way after `n` steps. -/
structure During (timer : Timer) (rest : List Code) (system : Simulation) (first n : Nat) :
    Prop where
  order : first < n
  ticks : Ticks timer rest system first
  within : ∀ m, first < m → m ≤ n → Calling timer rest (steps m system) ∧
    (steps m system).current = .idle ∧
    (steps m system).machine.clock = (steps (first + 1) system).machine.clock

variable {system : Simulation} {timer : Timer} {rest : List Code} {phase other : Phase} {n : Nat}

/-! ## Phases seen from outside -/

theorem Phase.length_lt_code (phase : Phase) : rest.length < (phase.code timer rest).length := by
  cases phase with
  | dispatching idle => simp only [code, List.length_cons]; omega
  | deciding idle => simp only [code, List.length_cons]; omega
  | calling code idle saved => simp only [Phase.code, List.length_append, List.length_cons]; omega

/-- A callback does not begin with what is not part of one. -/
theorem callback_ne_cons {code more : List Code} {piece ending : Code}
    (calls : ∀ piece ∈ code, piece.calls = true) (off : piece.calls = false)
    (other : piece ≠ ending) :
    code ++ ending :: rest ≠ piece :: more := by
  intro same
  cases code with
  | nil => exact other (List.cons_eq_cons.mp same).1.symm
  | cons head code =>
    have on := calls head List.mem_cons_self
    rw [(List.cons_eq_cons.mp same).1, off] at on
    cases on

namespace At

variable (stands : At timer rest system phase)
include stands

/-- What the driver has to do tells its phase. -/
theorem unique (stands' : At timer rest system other) : phase = other := by
  have same : phase.code timer rest = other.code timer rest :=
    congrArg Context.code (Option.some.inj (stands.code.symm.trans stands'.code))
  have length := congrArg List.length same
  -- dispatching and deciding differ in length, and a callback begins with neither of their pieces
  cases phase with
  | dispatching idle =>
    cases other with
    | dispatching idle' =>
      cases same
      rfl
    | deciding idle' => simp [Phase.code] at length
    | calling code idle' saved =>
      exact absurd same.symm (callback_ne_cons stands'.suits.2 rfl (by simp))
  | deciding idle =>
    cases other with
    | dispatching idle' => simp [Phase.code] at length
    | deciding idle' =>
      cases same
      rfl
    | calling code idle' saved =>
      exact absurd same.symm (callback_ne_cons stands'.suits.2 rfl (by simp))
  | calling code idle saved =>
    cases other with
    | dispatching idle' => exact absurd same (callback_ne_cons stands.suits.2 rfl (by simp))
    | deciding idle' => exact absurd same (callback_ne_cons stands.suits.2 rfl (by simp))
    | calling code' idle' saved' =>
      simp only [Phase.code, List.length_append, List.length_cons] at length
      obtain ⟨rfl, last⟩ := List.append_inj same (by omega)
      cases last
      rfl

/-- The driver closes a tick when the callback is over. -/
theorem closing_iff : system.closing = true ↔ ∃ idle saved, phase = .calling [] idle saved := by
  unfold closing
  rw [stands.code]
  cases phase with
  | dispatching idle => simp [Phase.code, Context.ofCode]
  | deciding idle => simp [Phase.code, Context.ofCode]
  | calling code idle saved =>
    cases code with
    | nil => simp [Phase.code, Context.ofCode]
    | cons piece code =>
      have calls := stands.suits.2 piece List.mem_cons_self
      cases piece with
      | operation performed => simp [Phase.code, Context.ofCode]
      | leave flag => simp [Phase.code, Context.ofCode]
      | alarm tick => simp [Phase.code, Context.ofCode]
      | dispatch name => cases calls
      | report name => cases calls
      | awaitTick timer idle => cases calls
      | endTick timer idle saved => cases calls

/-- After ticking has stopped the driver is at no phase. -/
theorem not_stops {before : Simulation} (stops : Stops rest before system) : False := by
  have same : rest = phase.code timer rest :=
    congrArg Context.code (Option.some.inj (stops.code.symm.trans stands.code))
  have longer := @Phase.length_lt_code timer rest phase
  rw [← same] at longer
  exact Nat.lt_irrefl _ longer

end At

/-! ## From step to step -/

theorem steps_succ_of_step {next : Simulation} (h : (steps n system).step = some next) :
    steps (n + 1) system = next := by
  rw [steps_succ, h]
  rfl

/-- A run that has come to its end stays there. -/
theorem steps_of_end {m : Nat} (rests : (steps n system).step = none) (le : n ≤ m) :
    steps m system = steps n system := by
  induction m, le using Nat.le_induction with
  | base => rfl
  | succ m le ih => rw [steps_succ, ih, rests, Option.getD_none]

/-- No tick is closed in a phase in which the driver has something else to do. -/
theorem At.lulls_succ (stands : At timer rest (steps n system) phase)
    (busy : ∀ idle saved, phase ≠ .calling [] idle saved) :
    lulls system (n + 1) = lulls system n := by
  have opened : (steps n system).closing = false := by
    rw [Bool.eq_false_iff]
    intro closes
    obtain ⟨idle, saved, same⟩ := stands.closing_iff.mp closes
    exact busy idle saved same
  rw [lulls, opened]
  rfl

theorem At.lulls_succ_of_closing {idle : Nat} {saved : Bool}
    (stands : At timer rest (steps n system) (.calling [] idle saved)) :
    lulls system (n + 1) = lulls system n ++ [(steps n system).machine.ready.isEmpty] := by
  rw [lulls, if_pos (stands.closing_iff.mpr ⟨idle, saved, rfl⟩)]

/-- What still costs something is not yet to be closed. -/
theorem Phase.calling_ne_of_cost {code : List Code} {cost idle : Nat} {saved : Bool}
    (less : cost < callCost code) (idle' : Nat) (saved' : Bool) :
    calling code idle saved ≠ .calling [] idle' saved' := by
  intro same
  cases same
  exact Nat.not_lt_zero cost less

/-- How many ticks in a row the driver has counted as idle. -/
def Phase.idle : Phase → Nat
  | dispatching idle => idle
  | deciding idle => idle
  | calling _ idle _ => idle

/-- How many ticks the clock has shown that are not closed. -/
def Phase.pending : Phase → Nat
  | dispatching _ => 0
  | deciding _ => 0
  | calling _ _ _ => 1

/-- After `n` steps the driver is at a phase, and has counted right. -/
structure Keeps (timer : Timer) (rest : List Code) (system : Simulation) (n : Nat) (phase : Phase) :
    Prop where
  stands : At timer rest (steps n system) phase
  limit : (steps n system).idleLimit = system.idleLimit
  counts : Counts system.idleLimit (lulls system n) phase.idle
  clock : (steps n system).machine.clock =
    system.machine.clock + (lulls system n).length + phase.pending
  called : ∀ code idle saved, phase = .calling code idle saved → idle < system.idleLimit ∧
    ∃ first, During timer rest system first n ∧ (steps first system).machine.interrupts = saved

/-- The driver begins by dispatching. -/
theorem Begins.keeps (begins : Begins timer rest system) :
    Keeps timer rest system 1 (.dispatching 0) := by
  have there : system.contexts.get? system.current =
      some (.ofCode (.operation (.runTimer timer.alarm timer.agenda) :: rest)) := by
    rw [begins.driver, begins.code]
  have step : system.step = some (system.setContext system.current
      (.ofCode (.dispatch runTimerName :: .awaitTick timer 0 :: rest))) := by
    simp only [Simulation.step, begins.on, Bool.false_eq_true, if_false, there, Context.ofCode,
      execute, begin,
      if_pos begins.driver]
  have same := @steps_succ_of_step system 0 _ step
  have opened : lulls system 1 = [] := by
    rw [lulls, steps, closing, begins.code]
    rfl
  constructor
  · rw [same]
    exact ⟨begins.on, set_driver begins.driver _ _, trivial⟩
  · rw [same]
    rfl
  · rw [opened]
    exact .nil _
  · rw [same, opened]
    rfl
  · intro code idle saved calling
    cases calling

/-- When the driver has decided to let the clock tick, a callback is entered as it should be. -/
theorem Keeps.ticks {idle : Nat} (keeps : Keeps timer rest system n (.deciding idle))
    (session : Session system) (goes : (steps n system).clockStops idle = false)
    (next : At timer rest (steps (n + 1) system) (.calling
      (timer.callback ((steps n system).machine.clock + 1)) idle
        (steps n system).machine.interrupts))
    (machine : (steps (n + 1) system).machine = { (steps n system).machine with
      clock := (steps n system).machine.clock + 1 }.setInterrupts false) :
    Ticks timer rest system n ∧ idle < system.idleLimit := by
  obtain ⟨rests, nobody⟩ := keeps.stands.suits
  have poised := (session.steps n).poised
  have stage := stage_setInterrupts
    { (steps n system).machine with clock := (steps n system).machine.clock + 1 } false
  rw [← machine] at stage
  have clock : (steps (n + 1) system).machine.clock = (steps n system).machine.clock + 1 :=
    congrArg (·.clock) stage
  obtain ⟨asleep, below⟩ := Bool.or_eq_false_iff.mp goes
  obtain ⟨thread, blocked⟩ := (anyBlocked_iff poised.nodup_keys).mp (by simpa using asleep)
  refine ⟨?_, by simpa [keeps.limit] using below⟩
  constructor
  · exact ⟨idle, keeps.stands⟩
  · exact clock
  · rw [clock, keeps.clock]
    rfl
  · exact current_of_rests next.suits.1
  · exact (congrArg (·.ready) stage).trans nobody
  · exact ⟨thread, (congrFun (congrArg (·.status) stage) thread).trans blocked⟩
  · rw [machine]
    exact interrupts_setInterrupts _ false
  · exact ⟨idle, (steps n system).machine.interrupts, by rw [clock, next.code]; rfl⟩

namespace Keeps

variable (keeps : Keeps timer rest system n phase)
include keeps

/-- Where nobody makes a step, a thread has the processor. -/
theorem of_stuck (stuck : (steps n system).step = none) :
    (∃ idle, phase = .dispatching idle) ∧ Keeps timer rest system (n + 1) phase ∧
      steps (n + 1) system = steps n system := by
  have same : steps (n + 1) system = steps n system := by
    rw [steps_succ, stuck]
    rfl
  have busy : ∀ piece more, phase.code timer rest = piece :: more →
      (steps n system).machine.running ≠ none := by
    intro piece more code rests
    have step := keeps.stands.step_of_driver (current_of_rests rests) code
    cases stuck.symm.trans step
  obtain ⟨stands, limit, counts, clock, -⟩ := keeps
  cases phase with
  | dispatching idle =>
    have opened := stands.lulls_succ (by simp)
    exact ⟨⟨idle, rfl⟩,
      ⟨same ▸ stands, same ▸ limit, opened ▸ counts, by rw [same, opened, clock], by simp⟩,
      same⟩
  | deciding idle => exact absurd stands.suits.1 (busy _ _ rfl)
  | calling code idle saved =>
    cases code with
    | nil => exact absurd stands.suits.1 (busy _ _ rfl)
    | cons piece code => exact absurd stands.suits.1 (busy _ _ rfl)

/-- What the driver has counted stays right from step to step. -/
theorem moves (session : Session system) (next : At timer rest (steps (n + 1) system) other)
    (limit : (steps (n + 1) system).idleLimit = (steps n system).idleLimit)
    (moves : Moves timer (steps n system) (steps (n + 1) system) phase other) :
    Keeps timer rest system (n + 1) other := by
  have limit := limit.trans keeps.limit
  have stands := keeps.stands
  have counts := keeps.counts
  have clock := keeps.clock
  cases moves with
  | dispatches same =>
    have opened := stands.lulls_succ (by simp)
    refine ⟨next, limit, opened ▸ counts, ?_, by simp⟩
    rw [same, opened, clock]
  | drains kernel =>
    have opened := stands.lulls_succ (by simp)
    refine ⟨next, limit, opened ▸ counts, ?_, by simp⟩
    rw [machine, kernel, opened]
    exact clock
  | ticks goes machine =>
    obtain ⟨ticks, below⟩ := keeps.ticks session goes next machine
    have opened := stands.lulls_succ (by simp)
    refine ⟨next, limit, opened ▸ counts, ?_, ?_⟩
    · rw [ticks.number, opened]
      rfl
    · rintro code idle saved same
      cases same
      -- this step is the one that enters the callback
      refine ⟨below, n, ⟨Nat.lt_succ_self n, ticks, fun m after before => ?_⟩, rfl⟩
      obtain rfl : m = n + 1 := by omega
      exact ⟨⟨_, _, _, next⟩, ticks.driver, rfl⟩
  | performs same less =>
    have opened := stands.lulls_succ (Phase.calling_ne_of_cost less)
    refine ⟨next, limit, opened ▸ counts, ?_, ?_⟩
    · rw [same, opened, clock]
      rfl
    · rintro code idle saved eq
      cases eq
      -- it was entered by the same step as before
      obtain ⟨below, first, during, flag⟩ := keeps.called _ _ _ rfl
      have order := during.order
      refine ⟨below, first, ⟨by omega, during.ticks, fun m after before => ?_⟩, flag⟩
      rcases Nat.eq_or_lt_of_le before with rfl | before
      · have last := (during.within n order (Nat.le_refl n)).2.2
        exact ⟨⟨_, _, _, next⟩, current_of_rests next.suits.1, same.trans last⟩
      · exact during.within m after (Nat.le_of_lt_succ before)
  | @closes idle saved machine =>
    have closed := stands.lulls_succ_of_closing
    obtain ⟨below, -⟩ := keeps.called _ _ _ rfl
    refine ⟨next, limit, ?_, ?_, by simp⟩
    · rw [closed]
      cases (steps n system).machine.ready.isEmpty with
      | true => exact counts.lull below
      | false => exact counts.stir
    · have same := congrArg (·.clock) (stage_setInterrupts (steps n system).machine saved)
      rw [closed, List.length_append, machine]
      exact same.trans clock

/-- The driver goes on, or ticking stops, or a violation has ended the script. -/
theorem goes_on (session : Session system)
    (quiet : ∀ tick, anyDispatches (timer.operationsAt tick) = false) :
    (steps (n + 1) system).ended = true ∨
      (∃ other, Keeps timer rest system (n + 1) other ∧
        (Moves timer (steps n system) (steps (n + 1) system) phase other ∨
          (∃ idle, phase = .dispatching idle) ∧ other = phase ∧
            steps (n + 1) system = steps n system)) ∨
      ∃ idle, phase = .deciding idle ∧ (steps n system).clockStops idle = true ∧
        Stops rest (steps n system) (steps (n + 1) system) := by
  have poised := (session.steps n).poised
  have stands := keeps.stands
  cases step : (steps n system).step with
  | none =>
    obtain ⟨dispatching, keeps', same⟩ := keeps.of_stuck step
    exact .inr (.inl ⟨phase, keeps', .inr ⟨dispatching, rfl, same⟩⟩)
  | some next =>
    obtain rfl : steps (n + 1) system = next := steps_succ_of_step step
    -- Whatever phase the driver moves to, the count goes on from where it stands.
    have further : ∀ {other : Phase}, (steps (n + 1) system).idleLimit =
      (steps n system).idleLimit →
        At timer rest (steps (n + 1) system) other ∧
          Moves timer (steps n system) (steps (n + 1) system) phase other →
        ∃ other, Keeps timer rest system (n + 1) other ∧
          (Moves timer (steps n system) (steps (n + 1) system) phase other ∨
            (∃ idle, phase = .dispatching idle) ∧ other = phase ∧
              steps (n + 1) system = steps n system) :=
      fun limit ⟨next, moves⟩ => ⟨_, keeps.moves session next limit moves, .inl moves⟩
    cases phase with
    | dispatching idle =>
      obtain ⟨limit, ended | ⟨other, goes⟩⟩ := stands.goes_on_dispatching poised step
      · exact .inl ended
      · exact .inr (.inl (further limit goes))
    | deciding idle =>
      obtain ⟨limit, ⟨other, goes⟩ | stops⟩ := stands.goes_on_deciding quiet step
      · exact .inr (.inl (further limit goes))
      · exact .inr (.inr ⟨idle, rfl, stops⟩)
    | calling code idle saved =>
      obtain ⟨limit, ended | ⟨other, goes⟩⟩ := stands.goes_on_calling step
      · exact .inl ended
      · exact .inr (.inl (further limit goes))

end Keeps

end Turnstile.Simulation
