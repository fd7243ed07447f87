import Turnstile.Proofs.Simulation.Exclusion

/-!
# Contexts from step to step

Whatever a system performs, orderly or not, a step gives other code to the context that has the
processor and to nobody else, except that a new thread gets a context of its own (`step_others`). So
a request that has switched away is followed through a run by looking whether its thread is in a
call (`Returns.of_inCall`).
-/

namespace Turnstile.Simulation

variable {system after : Simulation} {who : ThreadId} {name : String} {rest : List Code}

/-- Whether a context is in a call that has switched away. -/
def inCall (system : Simulation) (who : ThreadId) : Bool :=
  match system.contexts.get? who with
  | some { call := some _, code := _ } => true
  | _ => false

/-- Whether a context has neither ended nor a call under way. -/
def betweenCalls (system : Simulation) (who : ThreadId) : Bool :=
  match system.contexts.get? who with
  | some { call := none, code := _ } => true
  | _ => false

theorem exists_of_inCall (h : system.inCall who = true) : ∃ name owed code,
    system.contexts.get? who = some { call := some (name, owed), code } := by
  unfold inCall at h
  split at h
  · rename_i call code there
    exact ⟨call.1, call.2, code, there⟩
  · cases h

theorem exists_of_betweenCalls (h : system.betweenCalls who = true) : ∃ code,
    system.contexts.get? who = some (.ofCode code) := by
  unfold betweenCalls at h
  split at h
  · rename_i code there
    exact ⟨code, there⟩
  · cases h

/-! ## Where a step leaves contexts -/

theorem setContext_others {context : Context} (ne : who ≠ system.current) :
    (system.contexts.set system.current context).get? who = system.contexts.get? who := by
  rw [Directory.get?_set, if_neg ne.symm]

variable (system name) in
theorem fail_contexts (kernel : Kernel Uniprocessor) (violation : Violation) :
    (({ system with kernel } : Simulation).fail system.current name violation).contexts =
        system.contexts ∧
      (({ system with kernel } : Simulation).fail system.current name violation).ended = true ∨
    (({ system with kernel } : Simulation).fail system.current name violation).contexts =
      system.contexts.erase system.current := by
  unfold fail
  split
  · exact .inl ⟨rfl, rfl⟩
  · exact .inr rfl

variable (system name rest) in
/-- Where a call leaves the contexts: it is done or ends its thread, or it has switched away, or a
violation has ended the script. -/
theorem carryOn_contexts (call : KernelM Uniprocessor Progress) :
    let after := system.carryOn system.current name rest call
    after.contexts = system.contexts.set system.current (.ofCode rest) ∨
      after.contexts = system.contexts.erase system.current ∨
      (∃ owed, after.contexts =
        system.contexts.set system.current { call := some (name, owed), code := rest }) ∨
      after.contexts = system.contexts ∧ after.ended = true := by
  intro after
  unfold after carryOn
  split
  · exact .inl rfl
  · exact .inr (.inr (.inl ⟨_, rfl⟩))
  · split
    · exact .inl rfl
    · exact .inr (.inl rfl)
  · rename_i violation kernel failed
    rcases fail_contexts system name kernel violation with ended | erased
    · exact .inr (.inr (.inr ended))
    · exact .inr (.inl erased)

theorem carryOn_others (call : KernelM Uniprocessor Progress) (ne : who ≠ system.current) :
    (system.carryOn system.current name rest call).contexts.get? who =
      system.contexts.get? who := by
  rcases carryOn_contexts system name rest call with
    same | same | ⟨owed, same⟩ | ⟨same, -⟩
  · rw [same, setContext_others ne]
  · rw [same, Directory.get?_erase, if_neg ne.symm]
  · rw [same, setContext_others ne]
  · rw [same]

variable (system name) in
theorem fail_others (kernel : Kernel Uniprocessor) (violation : Violation)
    (ne : who ≠ system.current) :
    (({ system with kernel } : Simulation).fail system.current name violation).contexts.get? who =
      system.contexts.get? who := by
  rcases fail_contexts system name kernel violation with ⟨same, -⟩ | same
  · rw [same]
  · rw [same, Directory.get?_erase, if_neg ne.symm]

/-- A context that has not the processor stays as it is, unless it is that of a thread that has just
been made. -/
theorem begin_others (operation : Operation) (ne : who ≠ system.current) :
    (system.begin system.current rest operation).contexts.get? who = system.contexts.get? who ∨
      who = ⟨system.machine.nextThread⟩ ∧ ∃ body,
        (system.begin system.current rest operation).contexts.get? who = some (.ofScript body) := by
  cases operation with
  | request call => exact .inl (carryOn_others _ ne)
  | bracket body => exact .inl (setContext_others ne)
  | times count body => cases count <;> exact .inl (setContext_others ne)
  | spawn body =>
    show ((Directory.set _ _ _).set _ _).get? who = _ ∨
      _ ∧ ∃ _, ((Directory.set _ _ _).set _ _).get? who = _
    rw [Directory.get?_set, if_neg ne.symm, Directory.get?_set]
    split
    · rename_i new
      exact .inr ⟨new.symm, body, rfl⟩
    · exact .inl rfl
  | status name => exact .inl (setContext_others ne)
  | ticks => exact .inl (setContext_others ne)
  | raise text => exact .inl (fail_others system _ system.kernel _ ne)
  | foreign name => exact .inl (fail_others system _ system.kernel _ ne)
  | run =>
    unfold begin
    dsimp only
    split
    · exact .inl (setContext_others ne)
    · exact .inl (fail_others system _ system.kernel _ ne)
  | runTimer alarm agenda =>
    unfold begin
    dsimp only
    split
    · exact .inl (setContext_others ne)
    · exact .inl (fail_others system _ system.kernel _ ne)

theorem execute_others (piece : Code) (ne : who ≠ system.current) :
    (system.execute system.current rest piece).contexts.get? who = system.contexts.get? who ∨
      who = ⟨system.machine.nextThread⟩ ∧ ∃ body,
        (system.execute system.current rest piece).contexts.get? who = some (.ofScript body) := by
  cases piece with
  | operation performed => exact begin_others performed ne
  | leave saved => exact .inl (setContext_others ne)
  | dispatch name =>
    unfold execute dispatch
    dsimp only
    split
    · exact .inl (fail_others system _ _ _ ne)
    · split <;> exact .inl (setContext_others ne)
  | report name => exact .inl (setContext_others ne)
  | awaitTick timer idle =>
    unfold execute awaitTick
    dsimp only
    split <;> exact .inl (setContext_others ne)
  | alarm tick =>
    unfold execute handleTick
    dsimp only
    split
    · exact .inl (setContext_others ne)
    · exact .inl (fail_others system _ _ _ ne)
  | endTick timer idle saved => exact .inl (setContext_others ne)

theorem step_others (h : system.step = some after) (ne : who ≠ system.current) :
    after.contexts.get? who = system.contexts.get? who ∨
      who = ⟨system.machine.nextThread⟩ ∧ ∃ body,
        after.contexts.get? who = some (.ofScript body) := by
  unfold step at h
  split at h
  · cases h
  dsimp only at h
  split at h
  · cases h
  · cases h
    exact .inl (carryOn_others _ ne)
  · cases h
    exact execute_others _ ne
  · split at h
    · cases h
    · cases h
      exact .inl (by
        show (system.contexts.erase system.current).get? who = _
        rw [Directory.get?_erase, if_neg ne.symm])

/-- Whoever has the processor and is about to make a request makes it. -/
theorem step_of_calls {request : Request} (on : system.ended = false)
    (there : system.contexts.get? system.current =
      some (.ofCode (.operation (.request request) :: rest))) :
    system.step = some (system.carryOn system.current request.name rest request.perform) := by
  simp only [step, on, Bool.false_eq_true, if_false, there, Context.ofCode]
  rfl

/-- Whoever has the processor and is in a call goes on with it. -/
theorem step_of_call {owed : List Task} (on : system.ended = false)
    (there : system.contexts.get? system.current =
      some { call := some (name, owed), code := rest }) :
    system.step =
      some (system.carryOn system.current name rest (Kernel.resume .nothing owed)) := by
  simp only [step, on, Bool.false_eq_true, if_false, there]

/-- A script that has ended goes no further. -/
theorem ended_of_step (h : system.step = some after) : system.ended = false := by
  unfold step at h
  split at h
  · cases h
  · rename_i on
    exact Bool.eq_false_iff.mpr on

theorem on_of_later {m n : Nat} (order : m ≤ n) (on : (steps n system).ended = false) :
    (steps m system).ended = false := by
  induction n, order using Nat.le_induction with
  | base => exact on
  | succ n order ih =>
    rw [steps_succ] at on
    cases h : (steps n system).step with
    | none =>
      rw [h] at on
      exact ih on
    | some after => exact ih (ended_of_step h)

/-! ## Following a call -/

/-- A call that is under way after the step of a caller is the one that the caller was in. -/
theorem carryOn_inCall {call : KernelM Uniprocessor Progress}
    (on : (system.carryOn system.current name rest call).ended = false)
    (busy : (system.carryOn system.current name rest call).inCall system.current = true) :
    ∃ owed, (system.carryOn system.current name rest call).contexts.get? system.current =
      some { call := some (name, owed), code := rest } := by
  obtain ⟨name', owed', code, there⟩ := exists_of_inCall busy
  rcases carryOn_contexts system name rest call with
    same | same | ⟨owed, same⟩ | ⟨-, off⟩
  · rw [same, Directory.get?_set, if_pos rfl] at there
    cases there
  · rw [same, Directory.get?_erase, if_pos rfl] at there
    cases there
  · exact ⟨owed, by rw [same, Directory.get?_set, if_pos rfl]⟩
  · cases on.symm.trans off

/-- A caller that is between calls after its step goes on with what was left to do. -/
theorem carryOn_back {call : KernelM Uniprocessor Progress}
    (on : (system.carryOn system.current name rest call).ended = false)
    (back : (system.carryOn system.current name rest call).betweenCalls system.current = true) :
    (system.carryOn system.current name rest call).contexts.get? system.current =
      some (.ofCode rest) := by
  obtain ⟨code, there⟩ := exists_of_betweenCalls back
  rcases carryOn_contexts system name rest call with
    same | same | ⟨owed, same⟩ | ⟨-, off⟩
  · rw [same, Directory.get?_set, if_pos rfl]
  · rw [same, Directory.get?_erase, if_pos rfl] at there
    cases there
  · rw [same, Directory.get?_set, if_pos rfl] at there
    cases there
  · cases on.symm.trans off

/-- A request returns when its thread, in a call ever since, is between calls again. -/
theorem Returns.of_inCall {thread : ThreadId} {request : Request} {first last : Nat}
    (order : first ≤ last) (caller : (steps first system).current = thread)
    (calls : (steps first system).contexts.get? thread =
      some (.ofCode (.operation (.request request) :: rest)))
    (within : ∀ m ≤ last, first < m → (steps m system).inCall thread = true)
    (acts : (steps last system).current = thread)
    (back : (steps (last + 1) system).betweenCalls thread = true)
    (on : (steps (last + 1) system).ended = false) :
    Returns system thread request rest first last := by
  have calling : steps (first + 1) system =
      (steps first system).carryOn thread request.name rest request.perform := by
    rw [← caller] at calls ⊢
    rw [steps_succ, step_of_calls (on_of_later (by omega) on) calls]
    rfl
  have going : ∀ m, m ≤ last → (steps m system).current = thread → ∀ owed,
      (steps m system).contexts.get? thread =
        some { call := some (request.name, owed), code := rest } →
      steps (m + 1) system =
        (steps m system).carryOn thread request.name rest (Kernel.resume .nothing owed) := by
    intro m h acts owed there
    rw [← acts] at there ⊢
    rw [steps_succ, step_of_call (on_of_later (by omega) on) there]
    rfl
  -- From step to step the thread is in the same call, by induction on the steps since it was made.
  have same : ∀ m, first < m → m ≤ last → ∃ owed, (steps m system).contexts.get? thread =
      some { call := some (request.name, owed), code := rest } := by
    intro m after before
    induction m, after using Nat.le_induction with
    | base =>
      have busy := within (first + 1) before (Nat.lt_succ_self first)
      have on := on_of_later (show first + 1 ≤ last + 1 by omega) on
      show ∃ owed, (steps (first + 1) system).contexts.get? thread = _
      rw [calling, ← caller] at busy on ⊢
      exact carryOn_inCall on busy
    | succ m after ih =>
      obtain ⟨owed, there⟩ := ih (by omega)
      have busy := within (m + 1) before (by omega)
      have on := on_of_later (show m + 1 ≤ last + 1 by omega) on
      by_cases acts : (steps m system).current = thread
      · rw [going m (by omega) acts owed there, ← acts] at busy on ⊢
        exact carryOn_inCall on busy
      · rw [steps_succ] at busy ⊢
        cases h : (steps m system).step with
        | none => exact ⟨owed, there⟩
        | some after =>
          rw [h] at busy
          rcases step_others h (Ne.symm acts) with stays | ⟨-, body, new⟩
          · exact ⟨owed, stays.trans there⟩
          · obtain ⟨name, owed', code, busy⟩ := exists_of_inCall busy
            cases new.symm.trans busy
  refine ⟨order, caller, calls, same, acts, ?_⟩
  rcases Nat.eq_or_lt_of_le order with rfl | later
  · rw [calling, ← caller] at back on ⊢
    exact carryOn_back on back
  · obtain ⟨owed, there⟩ := same last later (Nat.le_refl last)
    rw [going last (Nat.le_refl last) acts owed there, ← acts] at back on ⊢
    exact carryOn_back on back

/-- What is so after step `first` stays so to the end, or until a step that makes something else so,
which stays so from then on. -/
theorem phases {early late turns : Nat → Prop} {first n : Nat} (order : first < n)
    (begun : early (first + 1))
    (goes : ∀ k, first < k → k < n → early k → early (k + 1) ∨ turns k ∧ late (k + 1))
    (stays : ∀ k, first < k → k < n → late k → late (k + 1)) :
    (∀ k, first < k → k ≤ n → early k) ∨
      ∃ m, first < m ∧ m < n ∧ turns m ∧ (∀ k, first < k → k ≤ m → early k) ∧
        ∀ k, m < k → k ≤ n → late k := by
  induction n, order using Nat.le_induction with
  | base =>
    refine .inl fun k after before => ?_
    obtain rfl : k = first + 1 := by omega
    exact begun
  | succ n order ih =>
    have order : first < n := order
    rcases ih (fun k after before => goes k after (by omega)) fun k after before =>
        stays k after (by omega) with all | ⟨m, after, before, turned, all, since⟩
    · rcases goes n order (Nat.lt_succ_self n) (all n order (Nat.le_refl n)) with
        further | ⟨turned, since⟩
      · refine .inl fun k after before => ?_
        rcases Nat.eq_or_lt_of_le before with rfl | before
        · exact further
        · exact all k after (Nat.le_of_lt_succ before)
      · refine .inr ⟨n, order, Nat.lt_succ_self n, turned, all, fun k after before => ?_⟩
        obtain rfl : k = n + 1 := by omega
        exact since
    · refine .inr ⟨m, after, Nat.lt_succ_of_lt before, turned, all, fun k after before => ?_⟩
      rcases Nat.eq_or_lt_of_le before with rfl | before
      · exact stays n (by omega) (Nat.lt_succ_self n) (since n (by omega) (Nat.le_refl n))
      · exact since k after (Nat.le_of_lt_succ before)

/-- A request that the thread makes in step `first` has switched away, and has not returned after
`n` steps. -/
structure Underway (system : Simulation) (thread : ThreadId) (request : Request) (rest : List Code)
    (first n : Nat) : Prop where
  order : first < n
  caller : (steps first system).current = thread
  calls : (steps first system).contexts.get? thread =
    some (.ofCode (.operation (.request request) :: rest))
  within : ∀ m, first < m → m ≤ n → ∃ owed, (steps m system).contexts.get? thread =
    some { call := some (request.name, owed), code := rest }

theorem Returns.underway {thread : ThreadId} {request : Request} {first last : Nat}
    (returns : Returns system thread request rest first last) (later : first < last) :
    Underway system thread request rest first last :=
  ⟨later, returns.caller, returns.calls, returns.within⟩

theorem Underway.sooner {thread : ThreadId} {request : Request} {first m n : Nat}
    (underway : Underway system thread request rest first n) (after : first < m) (before : m ≤ n) :
    Underway system thread request rest first m :=
  ⟨after, underway.caller, underway.calls, fun k late early =>
    underway.within k late (Nat.le_trans early before)⟩

/-- A call that is under way stands where it stands in a step that its thread does not make. -/
theorem call_of_off {thread : ThreadId} {context : Context} {call : String × List Task} {m : Nat}
    (there : (steps m system).contexts.get? thread = some context)
    (off : (steps m system).current ≠ thread)
    (later : (steps (m + 1) system).contexts.get? thread =
      some { call := some call, code := rest }) :
    context = { call := some call, code := rest } := by
  rw [steps_succ] at later
  cases step : (steps m system).step with
  | none =>
    rw [step] at later
    exact Option.some.inj (there.symm.trans later)
  | some after =>
    rw [step] at later
    rcases step_others step off.symm with same | ⟨-, body, new⟩
    · exact Option.some.inj (there.symm.trans (same.symm.trans later))
    · cases new.symm.trans later

/-- What is so of a request that has just switched away, and stays so from one step of it to the
next, is so while it is under way. -/
theorem Underway.holds {thread : ThreadId} {request : Request} {first n : Nat}
    (underway : Underway system thread request rest first n) {P : Nat → List Task → Prop}
    (begun : ∀ owed, (steps (first + 1) system).contexts.get? thread =
      some { call := some (request.name, owed), code := rest } → P (first + 1) owed)
    (goes : ∀ k owed owed', first < k → k < n →
      (steps k system).contexts.get? thread =
        some { call := some (request.name, owed), code := rest } →
      (steps (k + 1) system).contexts.get? thread =
        some { call := some (request.name, owed'), code := rest } → P k owed → P (k + 1) owed')
    {m : Nat} (after : first < m) (before : m ≤ n) : ∃ owed, (steps m system).contexts.get? thread =
      some { call := some (request.name, owed), code := rest } ∧ P m owed := by
  -- By induction on the steps since the call was made.
  induction m, after using Nat.le_induction with
  | base =>
    obtain ⟨owed, there⟩ := underway.within (first + 1) (Nat.lt_succ_self first) before
    exact ⟨owed, there, begun owed there⟩
  | succ m after ih =>
    obtain ⟨owed, there, holds⟩ := ih (Nat.le_of_succ_le before)
    obtain ⟨owed', there'⟩ := underway.within (m + 1) (Nat.lt_succ_of_lt after) before
    exact ⟨owed', there', goes m owed owed' after before there there' holds⟩

end Turnstile.Simulation
