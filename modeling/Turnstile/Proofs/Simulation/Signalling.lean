import Turnstile.Proofs.Kernel.Rechecking
import Turnstile.Proofs.Simulation.Contexts

/-!
# Waiting in line

What a whole run says of its conditions. Each wait puts a thread at the end of a condition's line,
each signal and each broadcast readies threads from its front.

* **A step** (`Orderly.line_step`): whoever stood in the line, followed by whoever comes in the
  step, is whoever is woken in it, followed by whoever stands in the line afterwards.
* **A run** (`waits_eq`): the waits so far are the wake-ups so far and then the line, thread by
  thread, so that the first wake-up belongs to the first wait, the second to the second, and so on.

`conditions_wake_in_order` draws the conclusions: nobody goes on before the wake-up that belongs to
its wait, no signal misses a thread that waits, and waits return with the lock.
-/

namespace Turnstile

namespace Simulation

variable {rules : Bool → Request → Bool} {system after : Simulation} {index : Nat}

/-! ## What a step does to a line -/

/-- Who stands in the line of a condition. -/
def line (system : Simulation) (index : Nat) : List ThreadId := system.kernel.scene.line index

/-- The condition in whose line whoever has the processor is about to come. -/
def linesUp? (system : Simulation) : Option Nat :=
  match system.contexts.get? system.current with
  | some { call := some (_, owed), code := _ } =>
    Task.linesUp? system.current system.kernel.memory system.kernel.scene.ledger owed
  | some { call := none, code := .operation (.request request) :: _ } =>
    request.linesUp? system.kernel.memory
  | _ => none

/-- The condition that whoever has the processor is about to call up, and whether all in
its line. -/
def callsUp? (system : Simulation) : Option (Nat × Bool) :=
  match system.contexts.get? system.current with
  | some { call := none, code := .operation (.request request) :: _ } => request.callsUp?
  | _ => none

/-- Who comes to wait on a condition in the next step. -/
def coming (system : Simulation) (index : Nat) : List ThreadId :=
  if system.linesUp? = some index then [system.current] else []

/-- Whom the step to `after` readies by a signal or a broadcast on a condition. -/
def woken (system : Simulation) (index : Nat) (after : Simulation) : List ThreadId :=
  if system.callsUp?.map Prod.fst = some index then
    after.machine.ready.drop system.machine.ready.length
  else []

theorem linesUp?_of_code {code : List Code}
    (there : system.contexts.get? system.current = some (.ofCode code))
    (other : ∀ request rest, code ≠ .operation (.request request) :: rest) :
    system.linesUp? = none ∧ system.callsUp? = none := by
  unfold linesUp? callsUp?
  rw [there]
  unfold Context.ofCode
  constructor
  · split
    · rename_i same
      cases same
    · rename_i same
      cases same
      exact absurd rfl (other _ _)
    · rfl
  · split
    · rename_i same
      cases same
      exact absurd rfl (other _ _)
    · rfl

theorem linesUp?_of_request {request : Request} {rest : List Code}
    (there : system.contexts.get? system.current =
      some (.ofCode (.operation (.request request) :: rest))) :
    system.linesUp? = request.linesUp? system.kernel.memory ∧
      system.callsUp? = request.callsUp? := by
  unfold linesUp? callsUp?
  rw [there]
  exact ⟨rfl, rfl⟩

theorem linesUp?_of_call {name : String} {owed : List Task} {rest : List Code}
    (there : system.contexts.get? system.current =
      some { call := some (name, owed), code := rest }) :
    system.linesUp? =
        Task.linesUp? system.current system.kernel.memory system.kernel.scene.ledger owed ∧
      system.callsUp? = none := by
  unfold linesUp? callsUp?
  rw [there]
  exact ⟨rfl, rfl⟩

/-- A signal readies the first in the line, a broadcast all, in their order. -/
theorem Orderly.callsUp_step (orderly : system.Orderly rules) (advance : Advance rules system after)
    {all : Bool} (calls : system.callsUp? = some (index, all)) :
    after.machine.ready = system.machine.ready ++ Condition.called all (system.line index) ∧
      system.line index = Condition.called all (system.line index) ++ after.line index := by
  rcases orderly.advance_cases advance with
    ⟨request, rest, progress, scene, there, outcome, lands⟩ |
    ⟨name, owed, rest, progress, scene, there, resumed, lands⟩ | passive
  · rw [(linesUp?_of_request there).2] at calls
    obtain ⟨rfl, part, ready⟩ := outcome.line_of_callsUp calls
    cases lands with
    | done shows contexts =>
      have now : after.machine.ready = scene.stage.ready := congrArg (·.ready) shows.stage
      have left : after.line index = scene.line index := by
        rw [line, shows.scene_eq]
      rw [now, left]
      exact ⟨ready, part⟩
  · rw [(linesUp?_of_call there).2] at calls
    cases calls
  · obtain ⟨code, there, other⟩ := passive.between
    rw [(linesUp?_of_code there other).2] at calls
    cases calls

/-- Whoever calls up a line does not come to stand in one. -/
theorem linesUp?_of_callsUp? {place : Nat × Bool} (calls : system.callsUp? = some place) :
    system.linesUp? = none := by
  unfold callsUp? at calls
  unfold linesUp?
  split at calls
  · rename_i request rest there
    rw [there]
    cases request with
    | conditionSignal | conditionBroadcast => rfl
    | _ => cases calls
  · cases calls

/-- Whoever stood in the line and whoever comes in a step is whoever is woken in it and whoever
stands in the line afterwards, in this order. -/
theorem Orderly.line_step (orderly : system.Orderly rules) (advance : Advance rules system after)
    (index : Nat) : system.line index ++ system.coming index =
      system.woken index after ++ after.line index := by
  unfold coming woken
  -- In a step that calls up nobody comes. In any other nobody is woken, and one thread may come.
  by_cases called : ∃ all, system.callsUp? = some (index, all)
  · obtain ⟨all, called⟩ := called
    obtain ⟨ready, part⟩ := orderly.callsUp_step advance called
    rw [linesUp?_of_callsUp? called, called, Option.map_some, if_pos rfl, ready,
      List.drop_left, ← part]
    simp
  have nobody : system.callsUp?.map Prod.fst ≠ some index := by
    intro same
    obtain ⟨⟨place, all⟩, called', rfl⟩ := Option.map_eq_some_iff.mp same
    exact called ⟨all, called'⟩
  rw [if_neg nobody, List.nil_append]
  rcases orderly.advance_cases advance with
    ⟨request, rest, progress, scene, there, outcome, lands⟩ |
    ⟨name, owed, rest, progress, scene, there, resumed, lands⟩ | passive
  · obtain ⟨lines, calls⟩ := linesUp?_of_request there
    obtain ⟨stage, same⟩ := lands.scene_eq
    have left : after.line index = scene.line index := by
      rw [line, same]
      rfl
    rw [lines, left]
    split
    · rename_i comes
      exact (outcome.line_of_linesUp comes).symm
    · rename_i stays
      rw [List.append_nil]
      exact (outcome.line_of_other stays fun all h => called ⟨all, calls.trans h⟩).symm
  · obtain ⟨stage, same⟩ := lands.scene_eq
    have left : after.line index = scene.line index := by
      rw [line, same]
      rfl
    have effect : scene.line index = if Task.linesUp? system.current system.kernel.memory
        system.kernel.scene.ledger owed = some index then system.line index ++ [system.current]
      else system.line index := resumed.line index
    rw [(linesUp?_of_call there).1, left, effect]
    split
    · rfl
    · exact List.append_nil _
  · obtain ⟨code, there, other⟩ := passive.between
    obtain ⟨stage, sleepers, same⟩ := passive.scene_eq
    rw [(linesUp?_of_code there other).1, if_neg (by simp), List.append_nil, line, line, same]
    rfl

/-- No step takes a condition away or binds it to another lock. -/
theorem Orderly.binds (orderly : system.Orderly rules) (advance : Advance rules system after) :
    system.kernel.scene.Binds after.kernel.scene := by
  rcases orderly.advance_cases advance with
    ⟨request, rest, progress, scene, there, outcome, lands⟩ |
    ⟨name, owed, rest, progress, scene, there, resumed, lands⟩ | passive
  · obtain ⟨stage, same⟩ := lands.scene_eq
    rw [same]
    exact outcome.binds
  · obtain ⟨stage, same⟩ := lands.scene_eq
    rw [same]
    exact resumed.binds
  · obtain ⟨stage, sleepers, same⟩ := passive.scene_eq
    rw [same]
    exact .of_eq rfl

/-- Where a run is at its end nobody comes and nobody is woken. -/
theorem Orderly.line_rests (orderly : system.Orderly rules) (rests : system.step = none) :
    system.linesUp? = none ∧ system.callsUp? = none := by
  unfold linesUp? callsUp?
  cases there : system.contexts.get? system.current with
  | none => exact ⟨rfl, rfl⟩
  | some context =>
    have idle : context.call = none ∧ context.code = [] := by
      by_contra busy
      refine orderly.step_ne_none there ?_ rests
      by_cases called : context.call = none
      · exact .inr fun none => busy ⟨called, none⟩
      · exact .inl called
    obtain ⟨call, code⟩ := context
    obtain ⟨rfl, rfl⟩ := idle
    exact ⟨rfl, rfl⟩

/-! ## What happens in a run, step by step -/

/-- What happens in the first steps of a run, each thing with the step in which it happens. -/
def chronicle {α : Type} (happens : Nat → List α) : Nat → List (Nat × α)
  | 0 => []
  | count + 1 => chronicle happens count ++ (happens count).map fun a => (count, a)

section

variable {α : Type} {happens : Nat → List α} {count k m : Nat} {a : α}

variable (happens) in
theorem chronicle_extends {later : Nat} (order : count ≤ later) :
    chronicle happens count <+: chronicle happens later := by
  induction later, order using Nat.le_induction with
  | base => exact List.prefix_rfl
  | succ later order ih => exact ih.trans (List.prefix_append _ _)

/-- An entry is written in the step that it names. -/
theorem chronicle_getElem? (there : (chronicle happens count)[k]? = some (m, a)) :
    m < count ∧ (chronicle happens m).length ≤ k ∧ k < (chronicle happens (m + 1)).length := by
  induction count with
  | zero => simp [chronicle] at there
  | succ count ih =>
    rw [chronicle, List.getElem?_append] at there
    split at there
    · obtain ⟨before, range⟩ := ih there
      exact ⟨by omega, range⟩
    · rename_i beyond
      rw [List.getElem?_map] at there
      obtain ⟨b, found, same⟩ := Option.map_eq_some_iff.mp there
      cases same
      have inside := (List.getElem?_eq_some_iff.mp found).1
      refine ⟨Nat.lt_succ_self _, by omega, ?_⟩
      simp only [chronicle, List.length_append, List.length_map]
      omega

end

/-- The waits on a condition in the first steps of a run, each with its step and its thread. -/
def waits (system : Simulation) (index : Nat) : Nat → List (Nat × ThreadId) :=
  chronicle fun m => (steps m system).coming index

/-- The wake-ups by signals and broadcasts on a condition in the first steps of a run. -/
def wakeUps (system : Simulation) (index : Nat) : Nat → List (Nat × ThreadId) :=
  chronicle fun m => (steps m system).woken index (steps (m + 1) system)

theorem chronicle_map_snd {α : Type} (happens : Nat → List α) (count : Nat) :
    (chronicle happens (count + 1)).map Prod.snd =
      (chronicle happens count).map Prod.snd ++ happens count := by
  simp [chronicle, Function.comp_def]

/-! ## Runs without violations -/

section

variable {count m n k p : Nat} {thread thread' : ThreadId}
  (legal : ∀ driver call, rules driver call = true → call.orderly driver = true)
  (begins : system.Orderly rules) (calm : (steps count system).untroubled = true)
include legal begins calm

theorem advance_of_untroubled (h : m < count) {context : Context}
    (there : (steps m system).contexts.get? (steps m system).current = some context)
    (busy : context.call ≠ none ∨ context.code ≠ []) :
    Advance rules (steps m system) (steps (m + 1) system) :=
  (moves_of_untroubled legal begins calm h).resolve_right fun rests =>
    (orderly_of_untroubled legal begins calm (Nat.le_of_lt h)).step_ne_none there busy rests.1

/-- The waits so far are the wake-ups so far and then the line. -/
theorem waits_eq (empty : system.line index = []) (h : m ≤ count) :
    (system.waits index m).map Prod.snd =
      (system.wakeUps index m).map Prod.snd ++ (steps m system).line index := by
  induction m with
  | zero =>
    show [] = [] ++ system.line index
    rw [empty, List.append_nil]
  | succ m ih =>
    have orderly := orderly_of_untroubled legal begins calm (Nat.le_of_lt h)
    have step : (steps m system).line index ++ (steps m system).coming index =
        (steps m system).woken index (steps (m + 1) system) ++
          (steps (m + 1) system).line index := by
      rcases moves_of_untroubled legal begins calm h with advance | ⟨rests, same⟩
      · exact orderly.line_step advance index
      · obtain ⟨nobody, silent⟩ := orderly.line_rests rests
        simp [coming, woken, nobody, silent, same]
    rw [waits, wakeUps, chronicle_map_snd, chronicle_map_snd, List.append_assoc, ← step,
      ← List.append_assoc]
    exact congrArg (· ++ _) (ih (Nat.le_of_lt h))

/-- A wait has been answered by the wake-up that belongs to it, or its thread still stands
in line. -/
theorem woken_or_in_line (empty : system.line index = []) (h : m ≤ count)
    (waited : (system.waits index m)[k]? = some (n, thread)) :
    (∃ p, (system.wakeUps index m)[k]? = some (p, thread)) ∨
      (system.wakeUps index m).length ≤ k ∧
        ((steps m system).line index)[k - (system.wakeUps index m).length]? = some thread := by
  have whole := congrArg (·[k]?) (waits_eq legal begins calm empty h)
  rw [List.getElem?_map, waited, List.getElem?_append, List.length_map] at whole
  split at whole
  · obtain ⟨⟨p, other⟩, found, same⟩ := Option.map_eq_some_iff.mp
      (List.getElem?_map .. ▸ whole.symm)
    cases same
    exact .inl ⟨p, found⟩
  · rename_i beyond
    exact .inr ⟨Nat.le_of_not_lt beyond, whole.symm⟩

/-- The wake-up that belongs to a wait is of the same thread and comes later. -/
theorem wakeUp_belongs (empty : system.line index = []) (h : m ≤ count)
    (waited : (system.waits index m)[k]? = some (n, thread))
    (woke : (system.wakeUps index m)[k]? = some (p, thread')) : thread' = thread ∧ n < p := by
  constructor
  · rcases woken_or_in_line legal begins calm empty h waited with ⟨p', woke'⟩ | ⟨beyond, -⟩
    · cases woke.symm.trans woke'
      rfl
    · rw [List.getElem?_eq_none beyond] at woke
      cases woke
  · obtain ⟨before, -, reached⟩ := chronicle_getElem? woke
    obtain ⟨-, late, -⟩ := chronicle_getElem? waited
    -- In the step of the wake-up nobody comes, so there have been more than `k` waits before it.
    have nobody : (steps p system).coming index = [] := by
      by_contra comes
      have lines : (steps p system).linesUp? = some index := by
        by_contra other
        exact comes (if_neg other)
      have silent : (steps p system).callsUp?.map Prod.fst ≠ some index := by
        intro same
        obtain ⟨place, calls, -⟩ := Option.map_eq_some_iff.mp same
        rw [linesUp?_of_callsUp? calls] at lines
        cases lines
      have none : (steps p system).woken index (steps (p + 1) system) = [] := if_neg silent
      obtain ⟨-, early, -⟩ := chronicle_getElem? woke
      rw [chronicle, none] at reached
      simp only [List.map_nil, List.append_nil] at reached
      omega
    have whole := waits_eq legal begins calm empty (show p + 1 ≤ count by omega)
    have lengths := congrArg List.length whole
    have come : (system.waits index (p + 1)).length = (system.waits index p).length := by
      rw [waits, chronicle, nobody]
      simp
    have grown : p ≤ n → (system.waits index p).length ≤ (system.waits index n).length :=
      fun order => (chronicle_extends _ order).length_le
    simp only [List.length_map, List.length_append] at lengths
    have reached : k < (system.wakeUps index (p + 1)).length := reached
    have late : (system.waits index n).length ≤ k := late
    by_contra early
    have := grown (Nat.le_of_not_lt early)
    omega

/-- Whoever has come to wait does not have the processor before the wake-up that belongs to
the wait. -/
theorem woken_of_current (empty : system.line index = []) (h : m ≤ count)
    (waited : (system.waits index m)[k]? = some (n, thread))
    (runs : (steps m system).current = thread) :
    ∃ p, n < p ∧ p < m ∧ (system.wakeUps index m)[k]? = some (p, thread) := by
  have orderly := orderly_of_untroubled legal begins calm h
  rcases woken_or_in_line legal begins calm empty h waited with ⟨p, woke⟩ | ⟨-, stands⟩
  · have belongs := wakeUp_belongs legal begins calm empty h waited woke
    exact ⟨p, belongs.2, (chronicle_getElem? woke).1, woke⟩
  · have awake := Scene.current_awake orderly.sane
    have stands : thread ∈ (steps m system).kernel.scene.waitlist (.condition index) :=
      List.mem_of_getElem? stands
    rw [← runs] at stands
    exact absurd (orderly.settled.asleep stands) awake

/-- The step in which a request is made that returns later, or at once. -/
theorem outcome_of_returns {request : Request} {rest : List Code} {first last : Nat}
    (returns : Returns system thread request rest first last) (bounded : last < count) :
    ∃ progress scene, request.Outcome
        ((steps first system).kernel.tables.queues.size < 4294967296)
        (steps first system).kernel.scene progress scene ∧ ∃ code,
      Lands (steps first system) request.name code scene progress (steps (first + 1) system) := by
  have h : first < count := Nat.lt_of_le_of_lt returns.order bounded
  have calling := returns.calls
  rw [← returns.caller] at calling
  have advance := advance_of_untroubled legal begins calm h calling (.inr nofun)
  obtain ⟨code, progress, scene, outcome, lands⟩ :=
    (orderly_of_untroubled legal begins calm (Nat.le_of_lt h)).of_calls advance ⟨rfl, rest, calling⟩
  exact ⟨progress, scene, outcome, code, lands⟩

/-- How a request comes to return. It is done in the step in which it is made; or it goes on after
it has switched away, and then what is true of such a call when it switches away (`P`), however
often, is true still, provided that nothing others do makes a difference to it. -/
theorem returned {P : Scene → List Task → Prop} {request : Request} {rest : List Code}
    {first last : Nat} (returns : Returns system thread request rest first last)
    (call : ∀ room after owed, request.Outcome room (steps first system).kernel.scene
      (.switched owed) after → P after owed)
    (goes : ∀ scene after owed owed', Resumed scene owed (.switched owed') after → P scene owed →
      P after owed')
    (others : ∀ scene after owed, scene.Binds after → P scene owed → P after owed)
    (bounded : last < count) :
    (first = last ∧ ∃ room reply, request.Outcome room (steps last system).kernel.scene
      (.done reply) (steps (last + 1) system).kernel.scene) ∨
    ∃ owed reply, P (steps last system).kernel.scene owed ∧
      Resumed (steps last system).kernel.scene owed (.done reply)
        (steps (last + 1) system).kernel.scene := by
  obtain ⟨progress, scene, outcome, code, lands⟩ :=
    outcome_of_returns legal begins calm returns bounded
  have back := returns.back
  rcases Nat.eq_or_lt_of_le returns.order with rfl | later
  · rw [← returns.caller] at back
    obtain ⟨⟨reply, rfl⟩, same⟩ := lands.back back
    rw [← same] at outcome
    exact .inl ⟨rfl, _, reply, outcome⟩
  have owes : ∃ owed, (steps last system).contexts.get? thread =
      some { call := some (request.name, owed), code := rest } ∧
        P (steps last system).kernel.scene owed := by
    refine (returns.underway later).holds (P := fun m owed => P (steps m system).kernel.scene owed)
      (fun owed there => ?_) (fun m owed owed' after before there there' holds => ?_)
      later (Nat.le_refl last)
    · rw [← returns.caller] at there
      obtain ⟨rfl, same⟩ := lands.away there
      exact same ▸ call _ _ _ outcome
    · have h : m < count := by omega
      have orderly := orderly_of_untroubled legal begins calm (Nat.le_of_lt h)
      by_cases acts : (steps m system).current = thread
      · rw [← acts] at there there'
        have advance := advance_of_untroubled legal begins calm h there (.inl nofun)
        obtain ⟨progress, scene, resumed, lands⟩ := orderly.of_call advance there
        obtain ⟨rfl, same⟩ := lands.away there'
        exact same ▸ goes _ _ _ _ resumed holds
      · cases call_of_off there acts there'
        rcases moves_of_untroubled legal begins calm h with advance | ⟨-, stuck⟩
        · exact others _ _ _ (orderly.binds advance) holds
        · rw [stuck]
          exact holds
  obtain ⟨owed, there, holds⟩ := owes
  rw [← returns.acts] at there back
  have orderly := orderly_of_untroubled legal begins calm (Nat.le_of_lt bounded)
  have advance := advance_of_untroubled legal begins calm bounded there (.inl nofun)
  obtain ⟨progress, scene, resumed, lands⟩ := orderly.of_call advance there
  obtain ⟨⟨reply, rfl⟩, same⟩ := lands.back back
  exact .inr ⟨owed, reply, holds, same ▸ resumed⟩

/-- Whoever waits on a condition owns its lock when the call returns. -/
theorem owns_of_returns {request : Request} {rest : List Code} {first last : Nat}
    (returns : Returns system thread request rest first last) (bounded : last < count)
    (lines : request.linesUp? (steps first system).kernel.memory = some index) : ∃ condition,
      (steps first system).kernel.conditions[index]? = some condition ∧
        (steps (last + 1) system).holder? condition.lock = some thread := by
  obtain ⟨progress, scene, outcome, -⟩ := outcome_of_returns legal begins calm returns bounded
  obtain ⟨condition, -, made, -, -⟩ := outcome.seeks lines
  refine ⟨condition, made, ?_⟩
  have ends := returned legal begins calm (P := fun scene owed => scene.Seeks condition.lock owed)
    returns ?_ (fun _ _ _ _ resumed seeks => (resumed.seeks seeks).2 _ rfl)
    (fun _ _ _ binds seeks => seeks.bound binds) bounded
  · rcases ends with ⟨rfl, room, reply, outcome⟩ | ⟨owed, reply, seeks, resumed⟩
    · obtain ⟨_, _, _, switched, _⟩ := outcome.seeks lines
      cases switched
    · rw [← returns.acts]
      exact (resumed.seeks seeks).1 reply rfl
  · intro room after owed outcome
    obtain ⟨condition', owed', made', switched, seeks⟩ := outcome.seeks lines
    cases made.symm.trans made'
    cases switched
    exact seeks

/-- A call that waits while a predicate holds returns in a step in which it fails, and with the lock
if its caller owned it when it made the call. -/
theorem fails_of_returns {predicate : Memory → Bool} {rest : List Code} {first last : Nat}
    (returns : Returns system thread (.conditionWhile index predicate) rest first last)
    (bounded : last < count) : predicate (steps last system).kernel.memory = false ∧
      (steps (last + 1) system).kernel.memory = (steps last system).kernel.memory ∧
      ∀ condition : Condition, (steps first system).kernel.conditions[index]? = some condition →
        (steps first system).holder? condition.lock = some thread →
        (steps (last + 1) system).holder? condition.lock = some thread := by
  have ends := returned legal begins calm returns
    (P := fun _ owed => predicate (steps first system).kernel.memory = true ∧
      LooksLast index predicate owed)
    (fun _ _ owed outcome => outcome.looks.2 owed rfl)
    (fun _ _ _ owed' resumed ⟨holds, looks⟩ => ⟨holds, (resumed.looks looks).2 owed' rfl⟩)
    (fun _ _ _ _ looks => looks) bounded
  rcases ends with ⟨rfl, room, reply, outcome⟩ | ⟨owed, reply, ⟨holds, looks⟩, resumed⟩
  · obtain ⟨fails, same⟩ := outcome.looks.1 reply rfl
    refine ⟨fails, congrArg (·.memory) same, fun condition _ owns => ?_⟩
    show (steps (first + 1) system).kernel.scene.ledger.owner? _ = _
    rw [same]
    exact owns
  · have fails := (resumed.looks looks).1 reply rfl
    refine ⟨fails, resumed.memory, fun condition made _ => ?_⟩
    obtain ⟨condition', made', owns⟩ :=
      owns_of_returns legal begins calm returns bounded (if_pos holds)
    cases made.symm.trans made'
    exact owns

end

/-! ## Conditions as a whole -/

/-- Of a run in which the driver and the threads reach locks and conditions by locks and conditions
only and no violation has ended any context, after any number of steps, of every condition:

* the threads that signals and broadcasts have readied are, in order, the first of those that have
  come to wait, and the line holds the others;
* the wake-up that belongs to a wait comes later, and whoever waits has the processor again only
  after it, be it to return or to ask for the lock;
* a signal or a broadcast finds whoever has come to wait in the line, in the place of that wait,
  unless an earlier one has woken the thread from it;
* a signal readies the first in the line if there is one, and a broadcast readies all and
  leaves nobody;
* a wait returns with the lock of its condition;
* a call that waits while a predicate holds, whatever the predicate, returns in a step in which it
  fails, and with the lock if it was made with it; on any machine it returns only where it fails. -/
theorem conditions_wake_in_order (config : Config) (idleLimit : Nat) (script : List Operation)
    (kept : keepAll Request.steady true script = true) (count : Nat)
    (calm : (steps count (start config idleLimit script)).untroubled = true) (index : Nat) :
    let system := start config idleLimit script
    let run := fun m => steps m system
    (system.waits index count).map Prod.snd =
        (system.wakeUps index count).map Prod.snd ++ (run count).line index ∧
    (∀ n ≤ count, ∀ (k m : Nat) (thread : ThreadId),
      (system.waits index n)[k]? = some (m, thread) →
      let before := system.wakeUps index n
      (∀ p other, before[k]? = some (p, other) → other = thread ∧ m < p) ∧
      ((run n).current = thread → ∃ p, m < p ∧ p < n ∧ before[k]? = some (p, thread)) ∧
      ∀ all, (run n).callsUp? = some (index, all) →
        (∃ p, m < p ∧ p < n ∧ before[k]? = some (p, thread)) ∨
          before.length ≤ k ∧ ((run n).line index)[k - before.length]? = some thread) ∧
    (∀ n < count,
      ((run n).callsUp? = some (index, false) →
        (run (n + 1)).machine.ready = (run n).machine.ready ++ ((run n).line index).take 1 ∧
          (run (n + 1)).line index = ((run n).line index).drop 1) ∧
      ((run n).callsUp? = some (index, true) →
        (run (n + 1)).machine.ready = (run n).machine.ready ++ (run n).line index ∧
          (run (n + 1)).line index = [])) ∧
    (∀ thread rest first last, last < count →
      system.Returns thread (.conditionWait index) rest first last →
      ∃ condition, (run first).kernel.conditions[index]? = some condition ∧
        (run (last + 1)).holder? condition.lock = some thread) ∧
    (∀ thread predicate rest first last, last < count →
      system.Returns thread (.conditionWhile index predicate) rest first last →
      predicate (run last).kernel.memory = false ∧
        (run (last + 1)).kernel.memory = (run last).kernel.memory ∧
        ∀ condition : Condition, (run first).kernel.conditions[index]? = some condition →
          (run first).holder? condition.lock = some thread →
          (run (last + 1)).holder? condition.lock = some thread) ∧
    ∀ (σ : Type) [Machine σ] (predicate : Memory → Bool) (passes : Nat) (owed : List Task)
      (reply reply' : Reply) (kernel after : Kernel σ),
      Condition.waitWhile index predicate passes kernel = .ok (.done reply) after ∨
        Kernel.resume reply' (owed ++ [.recheck index predicate passes]) kernel =
          .ok (.done reply) after → predicate after.memory = false := by
  intro system run
  have legal : ∀ driver call, Request.steady driver call = true →
      call.orderly driver = true := fun _ _ => Request.orderly_of_steady
  have begins : system.Orderly Request.steady := orderly_start config idleLimit kept
  have empty : system.line index = [] := rfl
  refine ⟨waits_eq legal begins calm empty (Nat.le_refl count), ?_, ?_, ?_, ?_, ?_⟩
  · intro n h k m thread waited
    refine ⟨fun p other => wakeUp_belongs legal begins calm empty h waited,
      woken_of_current legal begins calm empty h waited, fun all _ => ?_⟩
    refine (woken_or_in_line legal begins calm empty h waited).imp_left ?_
    rintro ⟨p, woke⟩
    have belongs := wakeUp_belongs legal begins calm empty h waited woke
    exact ⟨p, belongs.2, (chronicle_getElem? woke).1, woke⟩
  · intro n h
    have orderly := orderly_of_untroubled legal begins calm (Nat.le_of_lt h)
    have effect : ∀ all, (run n).callsUp? = some (index, all) →
        (run (n + 1)).machine.ready =
            (run n).machine.ready ++ Condition.called all ((run n).line index) ∧
          (run n).line index =
            Condition.called all ((run n).line index) ++ (run (n + 1)).line index := by
      intro all calls
      rcases moves_of_untroubled legal begins calm h with advance | ⟨rests, -⟩
      · exact orderly.callsUp_step advance calls
      · rw [(orderly.line_rests rests).2] at calls
        cases calls
    refine ⟨fun calls => ?_, fun calls => ?_⟩
    · obtain ⟨ready, part⟩ := effect false calls
      refine ⟨ready, ?_⟩
      have parts : ((run n).line index).take 1 ++ ((run n).line index).drop 1 =
          (run n).line index := List.take_append_drop 1 _
      exact (List.append_cancel_left (parts.trans part)).symm
    · obtain ⟨ready, part⟩ := effect true calls
      exact ⟨ready, by simpa [Condition.called] using part⟩
  · intro thread rest first last bounded returns
    exact owns_of_returns legal begins calm returns bounded rfl
  · intro thread predicate rest first last bounded returns
    exact fails_of_returns legal begins calm returns bounded
  · intro σ _ predicate passes owed reply reply' kernel after done
    rcases done with at_once | later
    · obtain ⟨fails, rfl⟩ := Condition.fails_of_waitWhile at_once
      exact fails
    · exact Kernel.fails_of_resume later

/-- Two threads that come to wait on a condition, the second while a variable is below 1, and a
third that sets the variable, signals and broadcasts. -/
def signalScript : List Operation :=
  [.request .lock, .request (.condition 0),
    .spawn [.request (.lockAcquire 0), .request (.conditionWait 0), .request (.lockRelease 0)],
    .spawn [.request (.lockAcquire 0), .request (.conditionWaitWhile 0 0 1),
      .request (.lockRelease 0)],
    .spawn [.request (.lockAcquire 0), .request (.add 0 1), .request (.conditionSignal 0),
      .request (.conditionBroadcast 0), .request (.lockRelease 0)],
    .run]

def signalled : Simulation := start .default 10 signalScript

/-- The first thread waits in step 8 and has returned after step 20. -/
theorem signalled_first : signalled.Returns ⟨1⟩ (.conditionWait 0)
    (Code.ofScript [.request (.lockRelease 0)]) 8 20 :=
  .of_inCall (by decide) (by decide +kernel) (by rfl) (by decide +kernel) (by decide +kernel)
    (by decide +kernel) (by decide +kernel)

/-- The second waits in step 11 and has returned after step 24. -/
theorem signalled_second : signalled.Returns ⟨2⟩ (.conditionWaitWhile 0 0 1)
    (Code.ofScript [.request (.lockRelease 0)]) 11 24 :=
  .of_inCall (by decide) (by decide +kernel) (by rfl) (by decide +kernel) (by decide +kernel)
    (by decide +kernel) (by decide +kernel)

/-- After 16 steps both threads have come to wait and the first has been signalled; the broadcast
that follows readies the second. Both return with the lock, each after its wake-up. -/
theorem conditions_wake_in_order_signalled :
    let run := fun m => steps m signalled
    (signalled.waits 0 16 = [(8, ⟨1⟩), (11, ⟨2⟩)] ∧ signalled.wakeUps 0 16 = [(15, ⟨1⟩)] ∧
      (signalled.waits 0 16).map Prod.snd =
        (signalled.wakeUps 0 16).map Prod.snd ++ (run 16).line 0) ∧
      (∃ p, 8 < p ∧ p < 20 ∧ (signalled.wakeUps 0 20)[0]? = some (p, ⟨1⟩)) ∧
      ((run 16).callsUp? = some (0, true) ∧ ((run 16).line 0)[0]? = some ⟨2⟩) ∧
      ((run 15).line 0 = [⟨1⟩, ⟨2⟩] ∧
        (run 16).machine.ready = (run 15).machine.ready ++ ((run 15).line 0).take 1) ∧
      (run 17).line 0 = [] ∧
      (∃ condition, (run 8).kernel.conditions[0]? = some condition ∧
        (run 21).holder? condition.lock = some ⟨1⟩) ∧
      (run 25).holder? ⟨⟨0⟩⟩ = some ⟨2⟩ := by
  intro run
  have kept : keepAll Request.steady true signalScript = true := by decide +kernel
  obtain ⟨order, -⟩ :=
    conditions_wake_in_order .default 10 signalScript kept 16 (by decide +kernel) 0
  obtain ⟨-, each, calls, wait, waitWhile, -⟩ :=
    conditions_wake_in_order .default 10 signalScript kept 25 (by decide +kernel) 0
  have woken := (each 20 (by decide) 0 8 ⟨1⟩ (by decide +kernel)).2.1 (by decide +kernel)
  have found := (each 16 (by decide) 1 11 ⟨2⟩ (by decide +kernel)).2.2 true (by decide +kernel)
  have signal := (calls 15 (by decide)).1 (by decide +kernel)
  have broadcast := (calls 16 (by decide)).2 (by decide +kernel)
  have single : (signalled.wakeUps 0 16)[1]? = none := by decide +kernel
  have once : (signalled.wakeUps 0 16).length = 1 := by decide +kernel
  have second : ((run 16).line 0)[0]? = some ⟨2⟩ := by
    rcases found with ⟨p, -, -, woke⟩ | ⟨-, stands⟩
    · cases single.symm.trans woke
    · have stands : ((run 16).line 0)[1 - (signalled.wakeUps 0 16).length]? = some ⟨2⟩ := stands
      rw [once] at stands
      exact stands
  refine ⟨⟨by decide +kernel, by decide +kernel, order⟩, woken, ⟨by decide +kernel, second⟩,
    ⟨by decide +kernel, signal.1⟩, broadcast.2, ?_, ?_⟩
  · exact wait _ _ _ _ (by decide) signalled_first
  · exact (waitWhile _ _ _ _ _ (by decide) signalled_second).2.2 ⟨⟨⟨0⟩⟩, [⟨1⟩]⟩ (by decide +kernel)
      (by decide +kernel)

end Simulation

end Turnstile
