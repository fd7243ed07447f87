import Turnstile.Proofs.Kernel.Regaining

/-!
# The lines of conditions

What operations do to the line of a condition.

* Its caller comes last in the line (`linesUp?`): by a request to wait, or when a call that waits
  while a predicate holds has its lock again and finds that the predicate still holds.
* The first in the line are woken (`Request.callsUp?`): one of them by a signal, all by a broadcast.
* Nothing else touches the line (`Request.Outcome.line_of_other`, `Resumed.line`).
-/

namespace Turnstile

/-! ## Who changes a line -/

/-- The condition in whose line a request puts its caller. -/
def Request.linesUp? (memory : Memory) : Request → Option Nat
  | conditionWait index => some index
  | conditionWhile index predicate => if predicate memory then some index else none
  | _ => none

/-- The condition that a request calls up, and whether it calls up all in the line. -/
def Request.callsUp? : Request → Option (Nat × Bool)
  | conditionSignal index => some (index, false)
  | conditionBroadcast index => some (index, true)
  | _ => none

/-- The condition in whose line a call puts its caller when it goes on with what it owes. It gets as
far as that if the locks that it asks for first are free. -/
def Task.linesUp? (caller : ThreadId) (memory : Memory) : Ledger → List Task → Option Nat
  | _, [] => none
  | ledger, .acquire lock :: rest =>
    if ledger.owner? lock.queue = none then
      linesUp? caller memory (ledger.install lock.queue caller) rest
    else none
  | ledger, .recheck index predicate _ :: rest =>
    if predicate memory then some index else linesUp? caller memory ledger rest
  | ledger, .leave _ :: rest => linesUp? caller memory ledger rest
  | ledger, .confirm _ :: rest => linesUp? caller memory ledger rest
  | ledger, .wakeDue _ :: rest => linesUp? caller memory ledger rest

/-- Those in a line who are called up by a signal or, if all are, by a broadcast. -/
def Condition.called (all : Bool) (line : List ThreadId) : List ThreadId :=
  if all then line else line.take 1

namespace Scene

/-- Who stands in the line of a condition. -/
def line (scene : Scene) (index : Nat) : List ThreadId := scene.waitlist (.condition index)

variable {scene after : Scene} {index : Nat} {progress : Progress}

theorem line_of_made {condition : Condition} (made : scene.conditions[index]? = some condition) :
    scene.line index = condition.waiting :=
  waitlist_condition made

theorem line_congr (same : after.conditions = scene.conditions) (index : Nat) :
    after.line index = scene.line index := by
  simp [line, waitlist, same]

/-- Nobody stands in the line of a condition that has just been made. -/
theorem line_snoc (lock : Lock) (index : Nat) :
    line { scene with conditions := scene.conditions ++ [⟨lock, []⟩] } index =
      scene.line index := by
  show (((scene.conditions ++ [_])[index]?).map _).getD [] = _
  rw [List.getElem?_append]
  split
  · rfl
  · rename_i beyond
    rw [line, waitlist, List.getElem?_eq_none (Nat.le_of_not_lt beyond)]
    cases index - scene.conditions.length <;> rfl

/-- What is written over one condition leaves the lines of the others as they are. -/
theorem line_modify_of_ne {place : Nat} {f : Condition → Condition} (ne : place ≠ index)
    (same : after.conditions = scene.conditions.modify place f) :
    after.line index = scene.line index := by
  simp [line, waitlist, same, ne]

theorem Acquires.conditions {lock : Lock} (acquires : scene.Acquires lock progress after) :
    after.conditions = scene.conditions := by
  cases acquires with
  | free | held => rfl

/-- Whoever waits stands last in the line. -/
theorem Waits.line {place : Nat} (waits : scene.Waits place progress after) (index : Nat) :
    after.line index =
      if place = index then scene.line index ++ [scene.current] else scene.line index := by
  obtain ⟨runs, made, gives⟩ := waits
  rename_i condition thread next saved
  have conditions := gives.hands.conditions
  split
  · rename_i here
    rw [← here, line_of_made made, current_of_running runs]
    simp [Scene.line, waitlist, lineUp, conditions, made]
  · rename_i ne
    exact line_modify_of_ne ne (by rw [lineUp, conditions])

theorem WaitsWhile.line {place passes : Nat} {predicate : Memory → Bool}
    (waits : scene.WaitsWhile place predicate passes progress after) (index : Nat) :
    after.line index = if predicate scene.memory = true ∧ place = index then
      scene.line index ++ [scene.current] else scene.line index := by
  cases waits with
  | stop fails => simp [fails]
  | waits holds waits => simp [holds, waits.line index]

/-- Those who are called up are first in the line and become ready in that order. -/
theorem CallsUp.line {place : Nat} {all : Bool} (calls : scene.CallsUp place all after) :
    scene.line place = Condition.called all (scene.line place) ++ after.line place ∧
      after.stage.ready = scene.stage.ready ++ Condition.called all (scene.line place) := by
  cases calls with
  | nobody made nobody =>
    rw [line_of_made made, nobody]
    cases all <;> simp [Condition.called]
  | @some condition woken left made line first everyone =>
    have rest : (scene.callUp place woken left).line place = left := by
      simp [Scene.line, callUp, waitlist, made]
    have called : Condition.called all condition.waiting = woken := by
      cases all with
      | false => simp [Condition.called, line, ← first rfl]
      | true => simp [Condition.called, line, everyone rfl]
    rw [rest, line_of_made made, called]
    exact ⟨line, Stage.ready_foldl_rouse scene.stage woken⟩

theorem CallsUp.line_of_ne {place : Nat} {all : Bool} (calls : scene.CallsUp place all after)
    (ne : place ≠ index) : after.line index = scene.line index := by
  cases calls with
  | nobody => rfl
  | some => exact line_modify_of_ne ne rfl

end Scene

/-! ## Requests -/

section

variable {room : Prop} {scene after : Scene} {request : Request} {progress : Progress} {index : Nat}
  (outcome : request.Outcome room scene progress after)
include outcome

/-- A request that puts its caller in the line of a condition. -/
theorem Request.Outcome.line_of_linesUp (lines : request.linesUp? scene.memory = some index) :
    after.line index = scene.line index ++ [scene.current] := by
  cases outcome with
  | conditionWait waits =>
    cases lines
    rw [waits.line, if_pos rfl]
  | conditionWhile waits =>
    simp only [linesUp?, Option.ite_none_right_eq_some, Option.some.injEq] at lines
    rw [waits.line, if_pos lines]
  | @quiet request reply after plain same =>
    cases request with
    | conditionWait | conditionWhile => cases plain
    | _ => cases lines
  | _ => cases lines

/-- A request that calls up those in the line of a condition. -/
theorem Request.Outcome.line_of_callsUp {all : Bool}
    (calls : request.callsUp? = some (index, all)) :
    progress = .done .nothing ∧
      scene.line index = Condition.called all (scene.line index) ++ after.line index ∧
      after.stage.ready = scene.stage.ready ++ Condition.called all (scene.line index) := by
  cases outcome with
  | conditionSignal callsUp | conditionBroadcast callsUp =>
    cases calls
    exact ⟨rfl, callsUp.line⟩
  | @quiet request reply after plain same =>
    cases request with
    | conditionSignal | conditionBroadcast => cases plain
    | _ => cases calls
  | _ => cases calls

/-- No other request touches the line. -/
theorem Request.Outcome.line_of_other (lines : request.linesUp? scene.memory ≠ some index)
    (calls : ∀ all, request.callsUp? ≠ some (index, all)) :
    after.line index = scene.line index := by
  cases outcome with
  | quiet plain same =>
    obtain ⟨ledger, memory, -, rfl⟩ := same
    rfl
  | exit | finish => rfl
  | lock makes | joinPoint makes => rcases makes with ⟨-, rfl⟩ | ⟨-, rfl⟩ <;> rfl
  | lockAcquire made acquires => exact Scene.line_congr acquires.conditions index
  | lockRelease made releases => exact Scene.line_congr releases.hands.conditions index
  | condition made => exact Scene.line_snoc _ index
  | conditionWait waits =>
    rw [waits.line, if_neg fun same => lines (congrArg some same)]
  | conditionWhile waits =>
    rw [waits.line, if_neg]
    rintro ⟨holds, rfl⟩
    exact lines (if_pos holds)
  | conditionSignal callsUp | conditionBroadcast callsUp =>
    refine callsUp.line_of_ne fun same => ?_
    subst same
    exact calls _ rfl
  | join joins => cases joins <;> rfl
  | joinExit exits =>
    obtain ⟨-, -, hands, -, -⟩ := exits
    exact Scene.line_congr hands.conditions index
  | alarmWait naps => cases naps <;> rfl
  | alarmTick ticks => cases ticks <;> rfl
  | yield offers => cases offers <;> rfl

end

/-! ## Calls that go on -/

/-- A call that goes on puts its caller in one line at most. -/
theorem Resumed.line {scene after : Scene} {owed : List Task} {progress : Progress}
    (resumed : Resumed scene owed progress after) (index : Nat) : after.line index =
      if Task.linesUp? scene.current scene.memory scene.ledger owed = some index then
        scene.line index ++ [scene.current]
      else scene.line index := by
  -- Of the tasks that are done to the end none lines up; the one in which the call
  -- switches away may.
  induction resumed with
  | stop => rfl
  | @next scene mid after task rest reply progress first others ih =>
    cases first with
    | leave | confirm => exact ih
    | @wakeDue tick =>
      have same : (scene.wakeDue tick).current = scene.current :=
        congrArg (·.getD .idle) (Stage.running_foldl_rouse scene.stage _)
      rw [same] at ih
      exact ih
    | acquire acquires =>
      cases acquires with
      | free live free =>
        rw [Task.linesUp?, Ledger.owner?_of_queue? live, if_pos free]
        exact ih
    | recheck waits =>
      obtain ⟨fails, rfl⟩ := waits.fails_of_done
      rw [Task.linesUp?, fails]
      exact ih
  | @away scene after task rest owed first =>
    cases first with
    | acquire acquires =>
      have conditions := acquires.conditions
      cases acquires with
      | held runs live held =>
        rw [Task.linesUp?, Ledger.owner?_of_queue? live, if_neg (by simp [held])]
        exact Scene.line_congr conditions index
    | recheck waits =>
      rw [waits.line, Task.linesUp?, waits.owed.1]
      simp

end Turnstile
