import Turnstile.Proofs.Kernel.Discipline
import Turnstile.Kernel.Request
import Turnstile.Proofs.Tables.Tabular

/-!
# Every call is disciplined

The calls of the scheduler, of locks, conditions, join points and the alarm are disciplined whatever
their caller's flag, except those that a caller makes as one step of something larger, which ask for
masked interrupts (`Request.atomic`).
-/

namespace Turnstile

open Kernel

section

variable {σ α β : Type} [Machine σ] {masked : Bool}

/-! ## Looking around -/

/-- What is read on the way has no part in what is shared. -/
theorem Tame.read {f : Kernel σ → α} {g : α → KernelM σ β}
    (blind : ∀ kernel shared, f (kernel.withShared shared) = f kernel)
    (rest : ∀ a, Tame masked (g a)) : Tame masked (get >>= fun kernel => g (f kernel)) :=
  have bound : Tame masked (Kernel.reads f >>= g) := .bind (.own (.reads blind)) rest
  bound

theorem currentThread_tame : Tame masked (currentThread : KernelM σ ThreadId) :=
  .own (.reads fun _ _ => rfl)

theorem resolve_tame (name : ThreadName) : Tame masked (Request.resolve (σ := σ) name) := by
  cases name with
  | id thread => exact .own (.pure thread)
  | me => exact currentThread_tame

/-- What was looked up in a place, if it was made. -/
def found (kind : String) (index : Nat) : Option α → KernelM σ α
  | some a => pure a
  | none => throw (.unknownObject kind index)

theorem found_tame (kind : String) (index : Nat) (a? : Option α) :
    Tame masked (found (σ := σ) kind index a?) := by
  cases a? with
  | some a => exact .own (.pure a)
  | none => exact .own (.throw rfl)

omit [Machine σ] in
theorem Lock.lookup_found (index : Nat) :
    Lock.lookup index =
      (get >>= fun kernel : Kernel σ => found "lock" index kernel.locks[index]?) := by
  refine congrArg (get >>= ·) (funext fun kernel => ?_)
  cases kernel.locks[index]? <;> rfl

omit [Machine σ] in
theorem Join.lookup_found (index : Nat) : Join.lookup index =
    (get >>= fun kernel : Kernel σ => found "join point" index kernel.joins[index]?) := by
  refine congrArg (get >>= ·) (funext fun kernel => ?_)
  cases kernel.joins[index]? <;> rfl

omit [Machine σ] in
theorem Condition.lookup_found (index : Nat) : Condition.lookup index =
    (get >>= fun kernel : Kernel σ => found "condition" index kernel.conditions[index]?) := by
  refine congrArg (get >>= ·) (funext fun kernel => ?_)
  cases kernel.conditions[index]? <;> rfl

theorem lockLookup_tame (index : Nat) : Tame masked (Lock.lookup (σ := σ) index) := by
  rw [Lock.lookup_found]
  exact .read (fun _ _ => rfl) (found_tame "lock" index)

theorem joinLookup_tame (index : Nat) : Tame masked (Join.lookup (σ := σ) index) := by
  rw [Join.lookup_found]
  exact .read (fun _ _ => rfl) (found_tame "join point" index)

/-- The lock of the condition in a place. Unlike the line it never changes. -/
def Condition.lockAt? (index : Nat) (kernel : Kernel σ) : Option Lock :=
  (kernel.conditions[index]?).map (·.lock)

/-- Go on with the lock of a condition, if the condition was made. -/
def Condition.withLock (index : Nat) (g : Lock → KernelM σ β) : Option Lock → KernelM σ β
  | some lock => g lock
  | none => throw (.unknownObject "condition" index)

omit [Machine σ] in
/-- Whoever looks a condition up for its lock does not look at the line. -/
theorem Condition.lookup_bind (index : Nat) (g : Lock → KernelM σ β) :
    (Condition.lookup index >>= fun condition => g condition.lock) =
      (get >>= fun kernel => Condition.withLock index g (Condition.lockAt? index kernel)) := by
  rw [Condition.lookup_found]
  funext kernel
  show (found "condition" index kernel.conditions[index]? >>= fun condition => g condition.lock)
    kernel =
    Condition.withLock index g (Condition.lockAt? index kernel) kernel
  unfold Condition.lockAt?
  cases kernel.conditions[index]? <;> rfl

omit [Machine σ] in
theorem Condition.lockAt?_blind (index : Nat) (kernel : Kernel σ) (shared : Shared) :
    Condition.lockAt? index (kernel.withShared shared) = Condition.lockAt? index kernel := by
  simp [Condition.lockAt?, withShared, Function.comp_def]

theorem conditionLookup_tame (index : Nat) {g : Lock → KernelM σ β}
    (rest : ∀ lock, Tame masked (g lock)) :
    Tame masked (Condition.lookup index >>= fun condition => g condition.lock) := by
  rw [Condition.lookup_bind]
  refine .read (f := Condition.lockAt? index) (g := Condition.withLock index g)
    (Condition.lockAt?_blind index) fun lock? => ?_
  cases lock? with
  | some lock => exact rest lock
  | none => exact .own (.throw rfl)

theorem Disciplined.read {f : Kernel σ → α} {g : α → KernelM σ Progress}
    (blind : ∀ kernel shared, f (kernel.withShared shared) = f kernel)
    (rest : ∀ a, Disciplined masked (g a)) :
    Disciplined masked (get >>= fun kernel => g (f kernel)) :=
  have bound : Disciplined masked (Kernel.reads f >>= g) := .bind (.own (.reads blind)) rest
  bound

theorem conditionLookup_disciplined (index : Nat) {g : Lock → KernelM σ Progress}
    (rest : ∀ lock, Disciplined masked (g lock)) :
    Disciplined masked (Condition.lookup index >>= fun condition => g condition.lock) := by
  rw [Condition.lookup_bind]
  refine .read (f := Condition.lockAt? index) (g := Condition.withLock index g)
    (Condition.lockAt?_blind index) fun lock? => ?_
  cases lock? with
  | some lock => exact rest lock
  | none => exact .throws rfl

/-! ## What is shared -/

/-- What is done after the check for masked interrupts, and leaves the machine alone. -/
theorem Guarded.intro {operation : String} {computation : KernelM σ α}
    (machine : ∀ kernel, (leftBy (computation kernel)).machine = kernel.machine)
    (fails : ∀ kernel violation after, computation kernel = .error violation after →
      violation.exposed = false) : Guarded (requireMasked operation >>= fun _ => computation) := by
  have guards : ∀ kernel, (requireMasked operation >>= fun _ => computation) kernel =
      if Machine.interrupts kernel.machine then .error (.interruptsEnabled operation) kernel
      else computation kernel := by
    intro kernel
    show EStateM.bind (requireMasked operation) _ kernel = _
    unfold EStateM.bind requireMasked
    cases Machine.interrupts kernel.machine <;> rfl
  refine ⟨fun kernel on => ⟨operation, by rw [guards, if_pos on]⟩, fun kernel => ?_, ?_⟩
  · rw [guards]
    split
    · rfl
    · exact machine kernel
  · intro kernel violation after off failed
    rw [guards, if_neg (by simp [off])] at failed
    exact fails kernel violation after failed

theorem Violation.exposed_of_tabular {violation : Violation} (tabular : violation.tabular = true) :
    violation.exposed = false := by
  cases violation <;> first | rfl | cases tabular

theorem updateTables_guarded {operation : String} {f : Tables → Except Violation (α × Tables)}
    (tabular : ∀ tables, Tabular (f tables)) : Guarded (updateTables (σ := σ) operation f) := by
  refine .intro (fun kernel => ?_) fun kernel violation after failed => ?_
  · cases f kernel.tables <;> rfl
  · cases outcome : f kernel.tables with
    | ok a => simp [outcome] at failed
    | error violation' =>
      simp only [outcome, EStateM.Result.error.injEq] at failed
      exact failed.1 ▸ Violation.exposed_of_tabular (tabular _ _ outcome)

/-- To read the tables is to change nothing in them. -/
theorem readTables_eq (operation : String) (f : Tables → Except Violation α) :
    readTables (σ := σ) operation f =
      updateTables operation fun tables => (f tables).map fun a => (a, tables) := by
  unfold readTables updateTables
  refine congrArg (requireMasked operation >>= ·) (funext fun _ => funext fun kernel => ?_)
  cases outcome : f kernel.tables <;> simp [outcome, Except.map]

theorem readTables_guarded {operation : String} {f : Tables → Except Violation α}
    (tabular : ∀ tables, Tabular (f tables)) : Guarded (readTables (σ := σ) operation f) := by
  rw [readTables_eq]
  exact updateTables_guarded fun tables => (tabular tables).map _

theorem changeTables_guarded {operation : String} {f : Tables → Except Violation Tables}
    (tabular : ∀ tables, Tabular (f tables)) : Guarded (changeTables (σ := σ) operation f) :=
  updateTables_guarded fun tables => (tabular tables).map _

theorem waitingAt_guarded (index : Nat) : Guarded (Condition.waitingAt (σ := σ) index) := by
  unfold Condition.waitingAt
  rw [Condition.lookup_found]
  refine .intro (fun kernel => ?_) fun kernel violation after failed => ?_
  · show (leftBy ((found "condition" index kernel.conditions[index]? >>= _) kernel)).machine = _
    cases kernel.conditions[index]? <;> rfl
  · have failed : (found "condition" index kernel.conditions[index]? >>= _) kernel = _ := failed
    cases known : kernel.conditions[index]? with
    | some condition =>
      rw [known] at failed
      cases failed
    | none =>
      rw [known] at failed
      cases failed
      rfl

theorem setWaitingAt_guarded (index : Nat) (threads : List ThreadId) :
    Guarded (Condition.setWaitingAt (σ := σ) index threads) :=
  .intro (fun _ => rfl) fun _ _ _ failed => by cases failed

theorem sleepers_guarded : Guarded (Alarm.sleepers (σ := σ)) :=
  .intro (fun _ => rfl) fun _ _ _ failed => by cases failed

theorem setSleepers_guarded (queue : SleepQueue) : Guarded (Alarm.setSleepers (σ := σ) queue) :=
  .intro (fun _ => rfl) fun _ _ _ failed => by cases failed

/-! ## The scheduler -/

theorem look_tame {operation : String} (f : Tables → α) :
    Tame masked (bracket (readTables (σ := σ) operation fun tables => .ok (f tables))) :=
  .bracket (.guarded (readTables_guarded fun _ => .ok _))

theorem lookAtQueue_tame {operation : String} (id : QueueId) (f : Queue → α) :
    Tame masked (bracket (readTables (σ := σ) operation fun tables => (tables.queue id).map f)) :=
  .bracket (.guarded (readTables_guarded fun tables => (Tables.queue_tabular tables id).map f))

theorem newQueue_tame (donation : Bool) : Tame masked (Scheduler.newQueue (σ := σ) donation) :=
  .bracket (.guarded (updateTables_guarded fun _ => .ok _))

theorem closeQueue_tame (id : QueueId) : Tame masked (Scheduler.closeQueue (σ := σ) id) :=
  .bracket (.guarded (changeTables_guarded fun tables => tables.closeQueue_tabular id))

theorem waitForAccess_tame (id : QueueId) (thread : ThreadId) :
    Tame true (Scheduler.waitForAccess (σ := σ) id thread) :=
  .guarded (changeTables_guarded fun tables => tables.enqueue_tabular id thread)

theorem acquire_tame (id : QueueId) (thread : ThreadId) :
    Tame true (Scheduler.acquire (σ := σ) id thread) :=
  .guarded (changeTables_guarded fun tables => tables.acquire_tabular id thread)

theorem nextThread_tame (id : QueueId) : Tame masked (Scheduler.nextThread (σ := σ) id) :=
  .bracket (.guarded (updateTables_guarded fun tables => tables.handOver_tabular id))

theorem baseOf_guarded (operation : String) (thread : ThreadId) :
    Guarded (updateTables (σ := σ) operation fun tables => .ok (tables.baseOf thread)) :=
  updateTables_guarded fun _ => .ok _

theorem getEffectivePriority_tame (thread : ThreadId) :
    Tame true (Scheduler.getEffectivePriority (σ := σ) thread) :=
  .guarded (updateTables_guarded fun tables => tables.effective_tabular thread)

theorem setBase_guarded (operation : String) (thread : ThreadId) (weight : Int) :
    Guarded (changeTables (σ := σ) operation (·.setBase thread weight)) :=
  changeTables_guarded fun tables => tables.setBase_tabular thread weight

theorem requireMasked_tame (operation : String) : Tame true (requireMasked (σ := σ) operation) := by
  refine .guarded ⟨fun kernel on => ⟨operation, if_pos on⟩, fun kernel => ?_, ?_⟩
  · unfold requireMasked
    split <;> rfl
  · intro kernel violation after off failed
    simp [requireMasked, off] at failed

/-- Set a weight that has been checked. -/
def Scheduler.setChecked (thread : ThreadId) (weight : Int) :
    Except OutOfRange Unit → KernelM σ (Except OutOfRange Unit)
  | .error refusal => pure (.error refusal)
  | .ok () => do
    changeTables "try_set_priority" (·.setBase thread weight)
    pure (.ok ())

theorem trySetPriority_tame (thread : ThreadId) (weight : Int) :
    Tame true (Scheduler.trySetPriority (σ := σ) thread weight) := by
  refine .bind (requireMasked_tame _) fun _ => ?_
  refine .read (f := fun kernel => kernel.config.policy.check weight)
    (g := Scheduler.setChecked thread weight) (fun _ _ => rfl) fun checked => ?_
  cases checked with
  | error refusal => exact .own (.pure _)
  | ok legal => exact .bind (.guarded (setBase_guarded _ thread weight)) fun _ => .own (.pure _)

theorem stepPriority_tame (operation : String) (step : Int) (atBound : Policy → Int → Bool) :
    Tame masked (Scheduler.stepPriority (σ := σ) operation step atBound) := by
  refine .bracket (.bind currentThread_tame fun thread => ?_)
  refine .read (f := fun kernel => kernel.config.policy)
    (g := fun policy => do
      let weight ← updateTables operation fun tables => .ok (tables.baseOf thread)
      if atBound policy weight then return false
      else
        changeTables operation (·.setBase thread (weight + step))
        return true) (fun _ _ => rfl) fun policy => ?_
  refine .bind (.guarded (baseOf_guarded operation thread)) fun weight => ?_
  split
  · exact .own (.pure _)
  · exact .bind (.guarded (setBase_guarded operation thread _)) fun _ => .own (.pure _)

theorem exitThread_tame (thread : ThreadId) : Tame masked (Scheduler.exitThread (σ := σ) thread) :=
  .bracket (.guarded (changeTables_guarded fun tables => tables.forget_tabular thread))

theorem finish_disciplined : Disciplined masked (Scheduler.finish (σ := σ)) :=
  .bracketCall (.bind currentThread_tame fun thread =>
    .bind (.guarded (changeTables_guarded fun tables => tables.forget_tabular thread)) fun _ =>
      .finishes)

/-! ## Locks -/

theorem lockCreate_tame : Tame masked (Lock.create (σ := σ)) :=
  .bind (newQueue_tame true) fun _ =>
    .bind (.own (.writes (fun _ => rfl) fun _ _ => rfl)) fun _ => .own (.pure _)

theorem isHeld_tame (lock : Lock) : Tame masked (lock.isHeld (σ := σ)) :=
  .bind (lookAtQueue_tame lock.queue _) fun _ => .bind currentThread_tame fun _ => .own (.pure _)

theorem lockAcquire_disciplined (lock : Lock) : Disciplined masked (lock.acquire (σ := σ)) := by
  refine .bracketCall (.bind currentThread_tame fun thread =>
    .bind (lookAtQueue_tame lock.queue _) fun holder => ?_)
  split
  · exact .throws rfl
  split
  · exact .bind (acquire_tame lock.queue thread) fun _ => .done _
  · exact .bind (waitForAccess_tame lock.queue thread) fun _ => .sleeps _ (by simp [Task.plain])

theorem confirm_tame (lock : Lock) : Tame masked (lock.confirm (σ := σ)) := by
  refine .bind (lookAtQueue_tame lock.queue _) fun holder =>
    .bind currentThread_tame fun thread => ?_
  split
  · exact .own (.pure ())
  · exact .own (.throw rfl)

theorem lockRelease_tame (lock : Lock) : Tame masked (lock.release (σ := σ)) := by
  refine .bracket (.bind currentThread_tame fun thread =>
    .bind (lookAtQueue_tame lock.queue _) fun holder => ?_)
  split
  · refine .bind (nextThread_tame lock.queue) fun winner => ?_
    cases winner with
    | some next => exact .wake next
    | none => exact .own (.pure ())
  · exact .own (.throw rfl)

/-! ## Conditions -/

theorem requireHeld_tame (lock : Lock) (operation : String) :
    Tame masked (Condition.requireHeld (σ := σ) ⟨lock, []⟩ operation) := by
  refine .bind (isHeld_tame lock) fun held => ?_
  split
  · exact .own (.pure ())
  · exact .own (.throw rfl)

theorem conditionWait_disciplined (index : Nat) :
    Disciplined masked (Condition.wait (σ := σ) index) := by
  refine conditionLookup_disciplined (g := fun lock => do
    Condition.requireHeld ⟨lock, []⟩ "wait"
    let slept ← bracketCall do
      let thread ← currentThread
      Condition.setWaitingAt index ((← Condition.waitingAt index) ++ [thread])
      lock.release
      sleep
      return .switched []
    return slept.owing [.acquire lock]) index fun lock => ?_
  refine .bind (requireHeld_tame lock _) fun _ => .owing _ (by simp [Task.plain]) (.bracketCall ?_)
  refine .bind currentThread_tame fun thread =>
    .bind (.guarded (waitingAt_guarded index)) fun line => ?_
  refine .bind (.guarded (setWaitingAt_guarded index _)) fun _ => ?_
  exact .bind (lockRelease_tame lock) fun _ => .sleeps [] (by simp)

theorem waitWhile_disciplined (index : Nat) (predicate : Memory → Bool) (passes : Nat) :
    Disciplined masked (Condition.waitWhile (σ := σ) index predicate passes) := by
  refine .read (f := fun kernel => kernel.memory)
    (g := fun memory => if predicate memory then do
        let waited ← Condition.wait index
        return waited.owing [.recheck index predicate (passes + 1)]
      else return .done (.count (passes + 1))) (fun _ _ => rfl) fun memory => ?_
  split
  · exact .owing _ (by simp [Task.plain]) (conditionWait_disciplined index)
  · exact .done _

/-- Wake the first of a condition's line. -/
def Condition.wakeFirst (index : Nat) : List ThreadId → KernelM σ Unit
  | [] => pure ()
  | first :: rest => do
    Condition.setWaitingAt index rest
    wake first

theorem signal_tame (index : Nat) : Tame masked (Condition.signal (σ := σ) index) := by
  refine conditionLookup_tame (g := fun lock => do
    Condition.requireHeld ⟨lock, []⟩ "signal"
    bracket do Condition.wakeFirst index (← Condition.waitingAt index)) index
    fun lock => .bind (requireHeld_tame lock _) fun _ => ?_
  refine .bracket (.bind (.guarded (waitingAt_guarded index)) fun line => ?_)
  cases line with
  | nil => exact .own (.pure ())
  | cons first rest => exact .bind (.guarded (setWaitingAt_guarded index rest)) fun _ => .wake first

theorem wakeLine_tame (index : Nat) (threads : List ThreadId) :
    Tame true (Condition.wakeLine (σ := σ) index threads) := by
  induction threads with
  | nil => exact .own (.pure ())
  | cons first rest ih =>
    exact .bind (.guarded (setWaitingAt_guarded index rest)) fun _ =>
      .bind (.wake first) fun _ => ih

theorem broadcast_tame (index : Nat) : Tame masked (Condition.broadcast (σ := σ) index) := by
  refine conditionLookup_tame (g := fun lock => do
    Condition.requireHeld ⟨lock, []⟩ "broadcast"
    bracket do Condition.wakeLine index (← Condition.waitingAt index)) index
    fun lock => .bind (requireHeld_tame lock _) fun _ => ?_
  exact .bracket (.bind (.guarded (waitingAt_guarded index)) fun line => wakeLine_tame index line)

/-! ## Join points -/

theorem amend_tame (index : Nat) (f : Join → Join) : Tame masked (Join.amend (σ := σ) index f) :=
  .own (.writes (fun _ => rfl) fun _ _ => rfl)

theorem joinCreate_tame (target : ThreadId) : Tame masked (Join.create (σ := σ) target) :=
  .bind (newQueue_tame true) fun id => .bind (.bracket (acquire_tame id target)) fun _ =>
    .bind (.own (.writes (fun _ => rfl) fun _ _ => rfl)) fun _ => .own (.pure _)

theorem join_disciplined (index : Nat) : Disciplined masked (Join.join (σ := σ) index) := by
  refine .bind (joinLookup_tame index) fun point => .bind currentThread_tame fun thread => ?_
  split
  · exact .throws rfl
  split
  · exact .throws rfl
  · refine .bind (amend_tame index _) fun _ =>
      .bracketCall (.bind (joinLookup_tame index) fun point => ?_)
    split
    · exact .done _
    · exact .bind (waitForAccess_tame _ thread) fun _ => .sleeps [] (by simp)

theorem joinExit_disciplined (index : Nat) : Disciplined masked (Join.exit (σ := σ) index) := by
  refine .bind (joinLookup_tame index) fun point => .bind currentThread_tame fun thread => ?_
  have leaves : Disciplined true
      (do Scheduler.closeQueue point.queue; Scheduler.finish : KernelM σ Progress) :=
    .bind (closeQueue_tame point.queue) fun _ => finish_disciplined
  split
  · refine .bracketCall (.bind (amend_tame index _) fun _ => .bind (nextThread_tame point.queue) ?_)
    intro winner
    cases winner with
    | some joiner => exact .bind (.wake joiner) fun _ => leaves
    | none => exact leaves
  · exact .throws rfl

/-! ## The alarm -/

theorem waitUntil_disciplined (ticks : Int) :
    Disciplined masked (Alarm.waitUntil (σ := σ) ticks) := by
  unfold Alarm.waitUntil
  split
  · exact .done _
  · refine .bracketCall (.bind currentThread_tame fun thread =>
      .bind (.own (.reads fun _ _ => rfl)) fun time =>
        .bind (.guarded sleepers_guarded) fun queue => ?_)
    exact .bind (.guarded (setSleepers_guarded _)) fun _ => .sleeps [] (by simp)

theorem wakeNext_tame (tick bound : Nat) : Tame true (Alarm.wakeNext (σ := σ) tick bound) := by
  induction bound with
  | zero => exact .own (.pure ())
  | succ bound ih =>
    refine .bind (.guarded sleepers_guarded) fun queue => ?_
    split
    · exact .own (.pure ())
    · exact .bind (.guarded (setSleepers_guarded _)) fun _ => .bind (.wake _) fun _ => ih

theorem wakeDue_tame (tick : Nat) : Tame masked (Alarm.wakeDue (σ := σ) tick) :=
  .bracket (.bind (.guarded sleepers_guarded) fun queue => wakeNext_tame tick queue.size)

theorem onTick_disciplined (tick : Nat) : Disciplined masked (Alarm.onTick (σ := σ) tick) :=
  .yields _ (by simp [Task.plain]) (.bind (wakeDue_tame tick) fun _ => .done _)

/-- Whatever a call owes but putting a flag back is disciplined. -/
theorem Task.run_disciplined (task : Task) (plain : task.plain = true) :
    Disciplined masked (task.run (σ := σ)) := by
  cases task with
  | leave saved => cases plain
  | confirm lock => exact .bind (confirm_tame lock) fun _ => .done _
  | acquire lock => exact lockAcquire_disciplined lock
  | recheck index predicate passes => exact waitWhile_disciplined index predicate passes
  | wakeDue tick => exact .bind (wakeDue_tame tick) fun _ => .done _

end

end Turnstile
