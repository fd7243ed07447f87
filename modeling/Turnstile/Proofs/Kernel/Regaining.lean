import Turnstile.Proofs.Kernel.Passing

/-!
# Locks to be regained

A call that has switched away either has nothing to do with locks any more (`Plain`), or will hold
one lock when it returns: it waits on the lock's queue, or has been handed the lock, or has still to
ask for it (`Scene.Regains`). When its thread goes on, the call holds that lock at its end or is on
its way to it again (`Resumed.regains`); no other lock is touched.
-/

namespace Turnstile

/-- Tasks that have nothing to do with locks. -/
inductive Plain : List Task → Prop
  | nothing : Plain []
  | leave {saved : Bool} : Plain [.leave saved]
  | wakeDue {tick : Nat} : Plain [.wakeDue tick]

namespace Scene

/-- What a call has still to do when it holds the lock again: nothing, or to look at a predicate
under the same lock. -/
def Again (scene : Scene) (lock : Lock) (tail : List Task) : Prop :=
  tail = [] ∨ ∃ index predicate passes condition, tail = [.recheck index predicate passes] ∧
    scene.conditions[index]? = some condition ∧ condition.lock = lock

/-- A call of `who` that will hold the lock when it returns. It has still to ask for the lock; or it
waits on the lock's queue, or owns that already. -/
inductive Regains (scene : Scene) (who : ThreadId) (lock : Lock) : List Task → Prop
  | woken {saved : Bool} {tail : List Task} (again : scene.Again lock tail) :
    Regains scene who lock (.leave saved :: .acquire lock :: tail)
  | queued {saved : Bool} {tail : List Task} (again : scene.Again lock tail)
    (waits : who ∈ scene.ledger.waiters lock.queue ∨
      scene.ledger.owner? lock.queue = some who) :
    Regains scene who lock (.confirm lock :: .leave saved :: tail)

variable {scene mid after : Scene} {who : ThreadId} {lock : Lock} {owed tail : List Task}

theorem Regains.not_plain (regains : scene.Regains who lock owed) : ¬ Plain owed := by
  intro plain
  cases regains <;> cases plain

/-- A call regains no more than one lock. -/
theorem Regains.unique {other : Lock} (regains : scene.Regains who lock owed)
    (regains' : after.Regains who other owed) : lock = other := by
  cases regains <;> cases regains' <;> rfl

theorem Again.later {gives : Lock → Prop} {drops : Prop} (again : scene.Again lock tail)
    (meets : Meets gives drops scene after) : after.Again lock tail := by
  rcases again with none | ⟨index, predicate, passes, condition, same, made, tie⟩
  · exact .inl none
  · obtain ⟨now, found, lock'⟩ := meets.conditions index condition made
    exact .inr ⟨index, predicate, passes, now, same, found, lock'.trans tie⟩

/-- What others do keeps nobody from regaining a lock. -/
theorem Regains.later {gives : Lock → Prop} {drops : Prop} (regains : scene.Regains who lock owed)
    (meets : Meets gives drops scene after) (made : lock ∈ scene.locks)
    (other : who ≠ scene.current) : after.Regains who lock owed := by
  have treats := meets.treats lock made
  cases regains with
  | woken again => exact .woken (again.later meets)
  | queued again waits =>
    exact .queued (again.later meets) (waits.elim (treats.queued who other)
      fun owns => .inr (treats.owned who other owns))

/-- Whoever regains a lock and is awake to look at it owns it already. -/
theorem Regains.trusts (regains : scene.Regains scene.current lock owed)
    (absent : scene.current ∉ scene.ledger.waiters lock.queue) : scene.Trusts owed := by
  have none : ∀ {tail}, scene.Again lock tail → ∀ other, Task.confirm other ∉ tail := by
    rintro tail (rfl | ⟨index, predicate, passes, condition, rfl, -, -⟩) other h
    · cases h
    · simp at h
  cases regains with
  | woken again =>
    refine ⟨nofun, fun other h => ?_⟩
    rcases List.mem_cons.mp h with same | h
    · cases same
    · exact none again other h
  | queued again waits =>
    refine ⟨fun other same => ?_, fun other h => ?_⟩
    · cases same
      exact waits.resolve_left absent
    · rcases List.mem_cons.mp h with same | h
      · cases same
      · exact none again other h

end Scene

theorem Plain.trusts {scene : Scene} {owed : List Task} (plain : Plain owed) :
    scene.Trusts owed := by
  cases plain with
  | nothing => trivial
  | leave | wakeDue => exact ⟨nofun, nofun⟩

namespace Scene

variable {scene after : Scene} {lock : Lock} {progress : Progress}

/-- Whoever waits on a condition is to take its lock again, and the condition is still there. -/
theorem Waits.owed {index : Nat} (waits : scene.Waits index progress after) :
    ∃ condition now saved, scene.conditions[index]? = some condition ∧
      after.conditions[index]? = some now ∧ now.lock = condition.lock ∧
      progress = .switched [.leave saved, .acquire condition.lock] := by
  obtain ⟨runs, made, gives⟩ := waits
  rename_i condition thread next saved
  have there : next.conditions[index]? = some condition := gives.hands.conditions ▸ made
  refine ⟨condition, { condition with waiting := condition.waiting ++ [thread] }, saved, made, ?_,
    rfl, rfl⟩
  simp [lineUp, there]

theorem WaitsWhile.owed {index passes : Nat} {predicate : Memory → Bool} {owed : List Task}
    (waits : scene.WaitsWhile index predicate passes (.switched owed) after) :
    predicate scene.memory = true ∧ ∃ condition, scene.conditions[index]? = some condition ∧
      ∀ who, after.Regains who condition.lock owed := by
  generalize switched : Progress.switched owed = progress at waits
  cases waits with
  | stop => cases switched
  | waits holds waits =>
    obtain ⟨condition, now, saved, made, found, tie, rfl⟩ := waits.owed
    cases switched
    exact ⟨holds, condition, made, fun who =>
      .woken (.inr ⟨index, predicate, passes + 1, now, rfl, found, tie⟩)⟩

theorem WaitsWhile.fails_of_done {index passes : Nat} {predicate : Memory → Bool} {reply : Reply}
    (waits : scene.WaitsWhile index predicate passes (.done reply) after) :
    predicate scene.memory = false ∧ after = scene := by
  generalize finished : Progress.done reply = progress at waits
  cases waits with
  | stop fails => exact ⟨fails, rfl⟩
  | waits holds waits =>
    obtain ⟨condition, now, saved, -, -, -, rfl⟩ := waits.owed
    cases finished

theorem Acquires.owed {owed : List Task} (acquires : scene.Acquires lock (.switched owed) after) :
    ∃ saved, owed = [.confirm lock, .leave saved] ∧
      scene.current ∈ after.ledger.waiters lock.queue := by
  cases acquires with
  | @held queue thread holder saved runs live held other =>
    refine ⟨saved, rfl, ?_⟩
    show scene.current ∈ (scene.ledger.join lock.queue thread).waiters lock.queue
    rw [current_of_running runs, Ledger.waiters_join _ _ _ _ live, if_pos rfl]
    simp

/-- A lock that is taken at once is the caller's. -/
theorem Acquires.owner {reply : Reply} (acquires : scene.Acquires lock (.done reply) after) :
    after.ledger.owner? lock.queue = some scene.current ∧ after.current = scene.current := by
  cases acquires with
  | free live =>
    refine ⟨?_, rfl⟩
    show (scene.ledger.install lock.queue scene.current).owner? lock.queue = _
    rw [Ledger.owner?_install _ _ _ _ live, if_pos rfl]

end Scene

/-- A request that switches away will hold the lock that it is to obtain, or has nothing to do with
locks. -/
theorem Request.Outcome.owed {room : Prop} {scene after : Scene} {request : Request}
    {owed : List Task} (outcome : request.Outcome room scene (.switched owed) after) :
    (∃ lock, request.obtained scene = some lock ∧ after.Regains scene.current lock owed) ∨
      request.obtained scene = none ∧ Plain owed := by
  cases outcome with
  | lockAcquire made acquires =>
    obtain ⟨saved, rfl, waits⟩ := acquires.owed
    exact .inl ⟨_, made, .queued (.inl rfl) (.inl waits)⟩
  | conditionWait waits =>
    obtain ⟨condition, now, saved, made, -, -, same⟩ := waits.owed
    cases same
    exact .inl ⟨condition.lock, by simp [obtained, waitedUnder, made], .woken (.inl rfl)⟩
  | conditionWhile waits =>
    obtain ⟨holds, condition, made, regains⟩ := waits.owed
    exact .inl ⟨condition.lock, by simp [obtained, waitedUnder, made, holds], regains _⟩
  | join joins =>
    cases joins
    exact .inr ⟨rfl, .leave⟩
  | alarmWait naps =>
    cases naps
    exact .inr ⟨rfl, .leave⟩
  | alarmTick ticks =>
    cases ticks
    exact .inr ⟨rfl, .wakeDue⟩
  | yield offers =>
    cases offers
    exact .inr ⟨rfl, .nothing⟩

/-- A call that obtains a lock and returns at once holds it. -/
theorem Request.Outcome.owner {room : Prop} {scene after : Scene} {request : Request}
    {reply : Reply} {lock : Lock} (outcome : request.Outcome room scene (.done reply) after)
    (obtained : request.obtained scene = some lock) :
    after.ledger.owner? lock.queue = some scene.current := by
  cases outcome with
  | lockAcquire made acquires =>
    cases made.symm.trans obtained
    exact acquires.owner.1
  | conditionWait waits =>
    obtain ⟨condition, now, saved, -, -, -, same⟩ := waits.owed
    cases same
  | conditionWhile waits =>
    simp [Request.obtained, waitedUnder, waits.fails_of_done.1] at obtained
  | @quiet request reply after plain same =>
    cases request with
    | lockAcquire | conditionWait | conditionWhile => cases plain
    | _ => cases obtained
  | _ => cases obtained

/-! ## Going on -/

/-- A call that goes on to regain a lock holds it at its end, or is on its way to it again. -/
structure Regained (lock : Lock) (scene : Scene) (progress : Progress) (after : Scene) : Prop where
  meets : Scene.Meets (· = lock) False scene after
  done : ∀ reply, progress = .done reply → after.ledger.owner? lock.queue = some scene.current
  switched : ∀ owed, progress = .switched owed → after.Regains scene.current lock owed

section

variable {scene mid after : Scene} {lock : Lock} {progress : Progress} {tail owed : List Task}

/-- What comes after a task that is done. -/
theorem Regained.trans (first : Scene.Meets (· = lock) False scene mid)
    (caller : mid.current = scene.current) (same : mid.locks = scene.locks)
    (regained : Regained lock mid progress after) : Regained lock scene progress after where
  meets := first.trans regained.meets caller same
  done reply h := caller ▸ regained.done reply h
  switched owed h := caller ▸ regained.switched owed h

/-- Whoever holds the lock and has no more to do than to look at a predicate. -/
theorem Resumed.again (resumed : Resumed scene tail progress after) (again : scene.Again lock tail)
    (apart : scene.Apart) (owns : scene.ledger.owner? lock.queue = some scene.current) :
    Regained lock scene progress after := by
  rcases again with rfl | ⟨index, predicate, passes, condition, rfl, made, tie⟩
  · cases resumed
    exact ⟨.refl apart, fun _ _ => owns, nofun⟩
  -- The predicate is looked at once more: either the call is done, or it gives the lock up to ask
  -- for it again.
  · cases resumed with
    | next first others =>
      cases first with
      | recheck waits =>
        obtain ⟨-, rfl⟩ := waits.fails_of_done
        cases others
        exact ⟨.refl apart, fun _ _ => owns, nofun⟩
    | away first =>
      have meets := first.meets apart
      cases first with
      | recheck waits =>
        obtain ⟨holds, condition', made', regains⟩ := waits.owed
        cases made.symm.trans made'
        refine ⟨meets.imp ?_, nofun, ?_⟩
        · rintro other ⟨condition', made', tie'⟩
          cases made.symm.trans made'
          exact tie'.symm.trans tie
        · intro owed same
          cases same
          rw [List.append_nil, ← tie]
          exact regains _

/-- Whoever has still to ask for the lock. -/
theorem Resumed.acquires (resumed : Resumed scene (.acquire lock :: tail) progress after)
    (again : scene.Again lock tail) (apart : scene.Apart) : Regained lock scene progress after := by
  cases resumed with
  | next first others =>
    have meets := first.meets apart
    have made := first.made
    cases first with
    | acquire acquires =>
      obtain ⟨owner, caller⟩ := acquires.owner
      rw [← caller] at owner
      exact .trans (meets.imp nofun) caller made.1
        (others.again (again.later meets) meets.apart owner)
  | away first =>
    have meets := first.meets apart
    cases first with
    | acquire acquires =>
      obtain ⟨saved, rfl, waits⟩ := acquires.owed
      refine ⟨meets.imp nofun, nofun, ?_⟩
      intro owed same
      cases same
      exact .queued (again.later meets) (.inl waits)

/-- A call that is to regain a lock, when it goes on. -/
theorem Resumed.regains (resumed : Resumed scene owed progress after)
    (regains : scene.Regains scene.current lock owed) (apart : scene.Apart) :
    Regained lock scene progress after := by
  cases regains with
  | woken again =>
    cases resumed with
    | next first others =>
      cases first
      exact others.acquires again apart
    | away first => cases first
  | queued again waits =>
    cases resumed with
    | next first others =>
      cases first with
      | confirm held =>
        cases others with
        | next first others =>
          cases first
          exact others.again again apart held
        | away first => cases first
    | away first => cases first

/-- A call that has nothing to do with locks is over when it goes on. -/
theorem Resumed.plain (resumed : Resumed scene owed progress after) (plain : Plain owed)
    (apart : scene.Apart) : (∃ reply, progress = .done reply) ∧
      Scene.Meets (fun _ => False) False scene after := by
  cases plain with
  | nothing =>
    cases resumed
    exact ⟨⟨_, rfl⟩, .refl apart⟩
  | leave | wakeDue =>
    cases resumed with
    | next first others =>
      have meets := first.meets apart
      cases first
      cases others
      exact ⟨⟨_, rfl⟩, meets.imp nofun⟩
    | away first => cases first

/-- Going on makes neither locks nor join points. -/
theorem Resumed.made (resumed : Resumed scene owed progress after) :
    after.locks = scene.locks ∧ after.joins = scene.joins := by
  induction resumed with
  | stop => exact ⟨rfl, rfl⟩
  | next first others ih => exact ⟨ih.1.trans first.made.1, ih.2.trans first.made.2⟩
  | away first => exact first.made

end

end Turnstile
