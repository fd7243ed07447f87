import Turnstile.Proofs.Kernel.Lines

/-!
# Calls that wait on conditions

How a call that waits on a condition comes to its end.

* **The lock** (`Scene.Seeks`): once woken it asks for the condition's lock, and it is over only
  when its thread owns the lock's queue (`Resumed.seeks`). That much is known however many queues
  there are.
* **The predicate**: a call that waits while a predicate holds looks at it last, and is over only if
  the predicate fails then (`Resumed.looks`, and on any machine `Kernel.fails_of_resume`).
-/

namespace Turnstile

/-! ## Conditions and their locks -/

namespace Scene

variable {scene mid after : Scene}

/-- Conditions are still there and bound to the locks they were bound to. -/
def Binds (scene after : Scene) : Prop :=
  ∀ (index : Nat) (condition : Condition), scene.conditions[index]? = some condition →
    ∃ now, after.conditions[index]? = some now ∧ now.lock = condition.lock

theorem Binds.of_eq (same : after.conditions = scene.conditions) : scene.Binds after :=
  fun _ condition there => ⟨condition, same ▸ there, rfl⟩

theorem Binds.of_modify {place : Nat} {f : Condition → Condition}
    (same : after.conditions = scene.conditions.modify place f)
    (lock : ∀ condition, (f condition).lock = condition.lock) : scene.Binds after := by
  intro index condition there
  refine ⟨if place = index then f condition else condition, ?_, ?_⟩
  · rw [same, List.getElem?_modify, there]
    split <;> rfl
  · split
    · exact lock condition
    · rfl

theorem Binds.trans (first : scene.Binds mid) (second : mid.Binds after) : scene.Binds after := by
  intro index condition there
  obtain ⟨next, found, lock⟩ := first index condition there
  obtain ⟨now, found, lock'⟩ := second index next found
  exact ⟨now, found, lock'.trans lock⟩

theorem Waits.binds {index : Nat} {progress : Progress} (waits : scene.Waits index progress after) :
    scene.Binds after := by
  obtain ⟨runs, made, gives⟩ := waits
  rename_i condition thread next saved
  have same : (next.lineUp index thread).conditions = scene.conditions.modify index
      fun condition => { condition with waiting := condition.waiting ++ [thread] } := by
    rw [lineUp, gives.hands.conditions]
  exact .of_modify same fun _ => rfl

theorem WaitsWhile.binds {index passes : Nat} {predicate : Memory → Bool} {progress : Progress}
    (waits : scene.WaitsWhile index predicate passes progress after) : scene.Binds after := by
  cases waits with
  | stop => exact .of_eq rfl
  | waits holds waits => exact waits.binds

theorem CallsUp.binds {index : Nat} {all : Bool} (calls : scene.CallsUp index all after) :
    scene.Binds after := by
  cases calls with
  | nobody => exact .of_eq rfl
  | some => exact .of_modify rfl fun _ => rfl

end Scene

theorem Request.Outcome.binds {room : Prop} {scene after : Scene} {request : Request}
    {progress : Progress} (outcome : request.Outcome room scene progress after) :
    scene.Binds after := by
  cases outcome with
  | quiet plain same =>
    obtain ⟨ledger, memory, -, rfl⟩ := same
    exact .of_eq rfl
  | exit | finish => exact .of_eq rfl
  | lock makes | joinPoint makes => rcases makes with ⟨-, rfl⟩ | ⟨-, rfl⟩ <;> exact .of_eq rfl
  | lockAcquire made acquires => exact .of_eq acquires.conditions
  | lockRelease made releases => exact .of_eq releases.hands.conditions
  | condition made =>
    intro index condition there
    refine ⟨condition, ?_, rfl⟩
    rw [List.getElem?_append_left (List.getElem?_eq_some_iff.mp there).1]
    exact there
  | conditionWait waits => exact waits.binds
  | conditionWhile waits => exact waits.binds
  | conditionSignal calls | conditionBroadcast calls => exact calls.binds
  | join joins => cases joins <;> exact .of_eq rfl
  | joinExit exits =>
    obtain ⟨-, -, hands, -, -⟩ := exits
    exact .of_eq hands.conditions
  | alarmWait naps => cases naps <;> exact .of_eq rfl
  | alarmTick ticks => cases ticks <;> exact .of_eq rfl
  | yield offers => cases offers <;> exact .of_eq rfl

theorem Task.Outcome.binds {scene after : Scene} {task : Task} {progress : Progress}
    (outcome : task.Outcome scene progress after) : scene.Binds after := by
  cases outcome with
  | leave | confirm | wakeDue => exact .of_eq rfl
  | acquire acquires => exact .of_eq acquires.conditions
  | recheck waits => exact waits.binds

theorem Resumed.binds {scene after : Scene} {owed : List Task} {progress : Progress}
    (resumed : Resumed scene owed progress after) : scene.Binds after := by
  induction resumed with
  | stop => exact .of_eq rfl
  | next first others ih => exact first.binds.trans ih
  | away first => exact first.binds

/-! ## Seeking a lock -/

namespace Scene

variable {scene after : Scene} {lock : Lock} {owed tail : List Task}

/-- A call that owes this asks for a lock and sees that it was given the lock. -/
inductive Seeks (scene : Scene) (lock : Lock) : List Task → Prop
  | woken {saved : Bool} {tail : List Task} (again : scene.Again lock tail) :
    Seeks scene lock (.leave saved :: .acquire lock :: tail)
  | queued {saved : Bool} {tail : List Task} (again : scene.Again lock tail) :
    Seeks scene lock (.confirm lock :: .leave saved :: tail)

theorem Again.bound (again : scene.Again lock tail) (binds : scene.Binds after) :
    after.Again lock tail := by
  rcases again with none | ⟨index, predicate, passes, condition, same, made, tie⟩
  · exact .inl none
  · obtain ⟨now, found, lock'⟩ := binds index condition made
    exact .inr ⟨index, predicate, passes, now, same, found, lock'.trans tie⟩

theorem Seeks.bound (seeks : scene.Seeks lock owed) (binds : scene.Binds after) :
    after.Seeks lock owed := by
  cases seeks with
  | woken again => exact .woken (again.bound binds)
  | queued again => exact .queued (again.bound binds)

end Scene

/-- What is known of a call that seeks a lock when it comes to a halt: it has the lock, or
seeks it. -/
def Found (lock : Lock) (scene : Scene) (progress : Progress) (after : Scene) : Prop :=
  (∀ reply, progress = .done reply → after.ledger.owner? lock.queue = some scene.current) ∧
    ∀ owed, progress = .switched owed → after.Seeks lock owed

section

variable {scene mid after : Scene} {lock : Lock} {progress : Progress} {tail owed : List Task}

/-- Whoever has the lock and at most a predicate left to look at. -/
theorem Resumed.keeps (resumed : Resumed scene tail progress after) (again : scene.Again lock tail)
    (owns : scene.ledger.owner? lock.queue = some scene.current) :
    Found lock scene progress after := by
  rcases again with rfl | ⟨index, predicate, passes, condition, rfl, made, tie⟩
  · cases resumed
    exact ⟨fun _ _ => owns, nofun⟩
  · cases resumed with
    | next first others =>
      cases first with
      | recheck waits =>
        obtain ⟨-, rfl⟩ := waits.fails_of_done
        cases others
        exact ⟨fun _ _ => owns, nofun⟩
    | away first =>
      cases first with
      | recheck waits =>
        refine ⟨nofun, fun owed same => ?_⟩
        cases same
        obtain ⟨holds, condition', made', regains⟩ := waits.owed
        cases made.symm.trans made'
        rw [List.append_nil, ← tie]
        cases regains scene.current with
        | woken again => exact .woken again
        | queued again => exact .queued again

/-- Whoever has still to ask for the lock. -/
theorem Resumed.asks (resumed : Resumed scene (.acquire lock :: tail) progress after)
    (again : scene.Again lock tail) : Found lock scene progress after := by
  cases resumed with
  | next first others =>
    have binds := first.binds
    cases first with
    | acquire acquires =>
      obtain ⟨owner, caller⟩ := acquires.owner
      rw [← caller] at owner
      have found := others.keeps (again.bound binds) owner
      rw [Found, caller] at found
      exact found
  | away first =>
    have binds := first.binds
    cases first with
    | acquire acquires =>
      obtain ⟨saved, rfl, -⟩ := acquires.owed
      refine ⟨nofun, fun owed same => ?_⟩
      cases same
      exact .queued (again.bound binds)

/-- A call that seeks a lock has it when it is over, and seeks it if it switches away. -/
theorem Resumed.seeks (resumed : Resumed scene owed progress after)
    (seeks : scene.Seeks lock owed) :
    Found lock scene progress after := by
  cases seeks with
  | woken again =>
    cases resumed with
    | next first others =>
      cases first
      exact others.asks again
    | away first => cases first
  | queued again =>
    cases resumed with
    | next first others =>
      cases first with
      | confirm held =>
        cases others with
        | next first others =>
          cases first
          exact others.keeps again held
        | away first => cases first
    | away first => cases first

end

/-- A request that waits on a condition switches away and seeks the condition's lock. -/
theorem Request.Outcome.seeks {room : Prop} {scene after : Scene} {request : Request}
    {progress : Progress} {index : Nat} (outcome : request.Outcome room scene progress after)
    (lines : request.linesUp? scene.memory = some index) :
    ∃ condition owed, scene.conditions[index]? = some condition ∧ progress = .switched owed ∧
      after.Seeks condition.lock owed := by
  cases outcome with
  | conditionWait waits =>
    cases lines
    obtain ⟨condition, now, saved, made, -, -, rfl⟩ := waits.owed
    exact ⟨condition, _, made, rfl, .woken (.inl rfl)⟩
  | conditionWhile waits =>
    simp only [linesUp?, Option.ite_none_right_eq_some, Option.some.injEq] at lines
    obtain ⟨holds, rfl⟩ := lines
    cases waits with
    | stop fails => cases holds.symm.trans fails
    | waits _ waits =>
      obtain ⟨condition, now, saved, made, found, tie, rfl⟩ := waits.owed
      exact ⟨condition, _, made, rfl, .woken (.inr ⟨_, _, _, now, rfl, found, tie⟩)⟩
  | @quiet request reply after plain same =>
    cases request with
    | conditionWait | conditionWhile => cases plain
    | _ => cases lines
  | _ => cases lines

/-! ## Predicates -/

/-- No task writes variables. -/
theorem Task.Outcome.memory {scene after : Scene} {task : Task} {progress : Progress}
    (outcome : task.Outcome scene progress after) : after.memory = scene.memory := by
  cases outcome with
  | leave | confirm | wakeDue => rfl
  | acquire acquires => cases acquires <;> rfl
  | recheck waits =>
    cases waits with
    | stop => rfl
    | waits holds waits =>
      obtain ⟨-, -, gives⟩ := waits
      obtain ⟨queue, winner, -, -, -, rfl⟩ := gives.hands
      rfl

theorem Resumed.memory {scene after : Scene} {owed : List Task} {progress : Progress}
    (resumed : Resumed scene owed progress after) : after.memory = scene.memory := by
  induction resumed with
  | stop => rfl
  | next first others ih => exact ih.trans first.memory
  | away first => exact first.memory

/-- A call that owes this looks at a predicate last. -/
def LooksLast (index : Nat) (predicate : Memory → Bool) (owed : List Task) : Prop :=
  ∃ before passes, owed = before ++ [.recheck index predicate passes]

/-- A call that looks at a predicate last is over only if the predicate fails, and looks at it last
again if it switches away. -/
theorem Resumed.looks {scene after : Scene} {owed : List Task} {progress : Progress} {index : Nat}
    {predicate : Memory → Bool} (resumed : Resumed scene owed progress after)
    (looks : LooksLast index predicate owed) :
    (∀ reply, progress = .done reply → predicate scene.memory = false) ∧
    ∀ owed', progress = .switched owed' → LooksLast index predicate owed' := by
  obtain ⟨before, passes, last⟩ := looks
  -- By induction on the tasks done. What comes before the last one does not touch memory.
  induction resumed generalizing before with
  | stop => simp at last
  | @next scene mid after task rest reply progress first others ih =>
    cases before with
    | nil =>
      cases last
      cases first with
      | recheck waits =>
        obtain ⟨fails, rfl⟩ := waits.fails_of_done
        cases others
        exact ⟨fun _ _ => fails, nofun⟩
    | cons head before =>
      rw [List.cons_append, List.cons.injEq] at last
      rw [← first.memory]
      exact ih before last.2
  | @away scene after task rest owed first =>
    refine ⟨nofun, fun owed' same => ?_⟩
    cases same
    cases before with
    | nil =>
      cases last
      cases first with
      | recheck waits =>
        generalize switched : Progress.switched owed = progress at waits
        cases waits with
        | stop => cases switched
        | waits holds waits =>
          obtain ⟨condition, now, saved, -, -, -, rfl⟩ := waits.owed
          cases switched
          exact ⟨[.leave saved, .acquire condition.lock], passes + 1, rfl⟩
    | cons head before =>
      rw [List.cons_append, List.cons.injEq] at last
      exact ⟨owed ++ before, passes, by rw [last.2, List.append_assoc]⟩

/-- A request to wait while a predicate holds is over at once only if it fails, and then nothing has
changed. Otherwise it looks at the predicate last again. -/
theorem Request.Outcome.looks {room : Prop} {scene after : Scene}
    {progress : Progress} {index : Nat}
    {predicate : Memory → Bool}
    (outcome : (Request.conditionWhile index predicate).Outcome room scene progress after) :
    (∀ reply, progress = .done reply → predicate scene.memory = false ∧ after = scene) ∧
    ∀ owed, progress = .switched owed → predicate scene.memory = true ∧
      LooksLast index predicate owed := by
  cases outcome with
  | quiet plain => cases plain
  | conditionWhile waits =>
    refine ⟨fun reply same => ?_, fun owed same => ?_⟩
    · subst same
      exact waits.fails_of_done
    · generalize switched : progress = other at waits
      cases waits with
      | stop => cases same.symm.trans switched
      | waits holds waits =>
        obtain ⟨condition, now, saved, -, -, -, rfl⟩ := waits.owed
        cases same.symm.trans switched
        exact ⟨holds, [.leave saved, .acquire condition.lock], 1, rfl⟩

/-! ## Any machine -/

section

open Kernel

variable {σ α β : Type} {index passes : Nat} {predicate : Memory → Bool}
  {progress : Progress} {reply reply' : Reply}

/-- A computation that goes on with the answer of another has an answer only if both have. -/
theorem Kernel.ok_of_bind {kernel after : Kernel σ} {computation : KernelM σ α}
    {next : α → KernelM σ β} {b : β} (done : (computation >>= next) kernel = .ok b after) :
    ∃ a mid, computation kernel = .ok a mid ∧ next a mid = .ok b after := by
  have done : EStateM.bind computation next kernel = .ok b after := done
  unfold EStateM.bind at done
  split at done
  · rename_i a mid first
    exact ⟨a, mid, first, done⟩
  · cases done

variable [Machine σ] {kernel after : Kernel σ}

/-- A call whose body switches away in any case switches away. -/
theorem Kernel.switches_of_bracketCall {body : KernelM σ Progress}
    (switches : ∀ progress after, body kernel.masked = .ok progress after →
      ∃ owed, progress = .switched owed)
    (done : bracketCall body kernel = .ok progress after) : ∃ owed, progress = .switched owed := by
  unfold bracketCall at done
  dsimp only at done
  split at done
  · cases done
    exact ⟨_, rfl⟩
  · rename_i ended
    obtain ⟨owed, same⟩ := switches _ _ ended
    cases same
  · rename_i ended
    obtain ⟨owed, same⟩ := switches _ _ ended
    cases same
  · cases done

/-- Whoever waits on a condition switches away, whatever the machine. -/
theorem Condition.wait_switches (done : Condition.wait index kernel = .ok progress after) :
    ∃ owed, progress = .switched owed := by
  obtain ⟨condition, k1, _, done⟩ := Kernel.ok_of_bind done
  obtain ⟨_, k2, _, done⟩ := Kernel.ok_of_bind done
  obtain ⟨slept, k3, called, done⟩ := Kernel.ok_of_bind done
  have switched : ∃ owed, slept = .switched owed := by
    refine Kernel.switches_of_bracketCall (fun progress after body => ?_) called
    obtain ⟨thread, k4, _, body⟩ := Kernel.ok_of_bind body
    obtain ⟨line, k5, _, body⟩ := Kernel.ok_of_bind body
    obtain ⟨_, k6, _, body⟩ := Kernel.ok_of_bind body
    obtain ⟨_, k7, _, body⟩ := Kernel.ok_of_bind body
    obtain ⟨_, k8, _, body⟩ := Kernel.ok_of_bind body
    cases body
    exact ⟨_, rfl⟩
  obtain ⟨owed, rfl⟩ := switched
  cases done
  exact ⟨_, rfl⟩

/-- Whatever the machine and the predicate: a call that waits for as long as the predicate holds is
over at once only if it does not hold. -/
theorem Condition.fails_of_waitWhile
    (done : Condition.waitWhile index predicate passes kernel = .ok (.done reply) after) :
    predicate kernel.memory = false ∧ after = kernel := by
  obtain ⟨state, k1, read, done⟩ := Kernel.ok_of_bind done
  cases read
  split at done
  · obtain ⟨waited, k2, waits, done⟩ := Kernel.ok_of_bind done
    obtain ⟨owed, rfl⟩ := Condition.wait_switches waits
    cases done
  · rename_i fails
    cases done
    exact ⟨Bool.eq_false_iff.mpr fails, rfl⟩

/-- A call that goes on to look at a predicate is over only if the predicate fails at its end. -/
theorem Kernel.fails_of_resume {owed : List Task}
    (done : resume reply (owed ++ [.recheck index predicate passes]) kernel =
      .ok (.done reply') after) : predicate after.memory = false := by
  induction owed generalizing reply kernel with
  | nil =>
    simp only [List.nil_append, resume, Task.run] at done
    split at done
    · rename_i reply mid looked
      cases done
      obtain ⟨fails, rfl⟩ := Condition.fails_of_waitWhile looked
      exact fails
    all_goals cases done
  | cons task rest ih =>
    simp only [List.cons_append, resume] at done
    split at done
    · exact ih done
    all_goals cases done

end

end Turnstile
