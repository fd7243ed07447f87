import Turnstile.Proofs.Kernel.Blame
import Turnstile.Proofs.Ledger.Moves
import Turnstile.Simulation.Step

/-!
# Misuse of locks and conditions

A lock is taken by threads that do not hold it, and given up by the one that does; a
condition is used under its lock. Whoever uses one of them otherwise is told so by a
violation, before anything has been done: all that is left of the call is that interrupts
have been masked and put back (`Kernel.counted`). Whoever uses them as it should is never
told that it misuses them (`misuse_is_caught`).

`waitWhile` asks its predicate first. Where that does not hold there is nothing to wait for, and the
call is over before anybody has looked at who holds the lock (`unheld_wait_returns`).
-/

namespace Turnstile

open Kernel

variable {α : Type} {kernel : Kernel Uniprocessor}

/-! ## Who holds a lock -/

namespace Lock

variable {lock : Lock}

/-- The context that calls holds the lock. -/
def HeldIn (lock : Lock) (kernel : Kernel Uniprocessor) : Prop :=
  kernel.tables.ledger.owner? lock.queue = some (Machine.current kernel.machine)

instance (lock : Lock) (kernel : Kernel Uniprocessor) : Decidable (lock.HeldIn kernel) :=
  inferInstanceAs (Decidable (_ = _))

/-- There is a queue behind the lock. -/
def Lives (lock : Lock) (kernel : Kernel Uniprocessor) : Prop :=
  (kernel.tables.queues.get? lock.queue).isSome = true

instance (lock : Lock) (kernel : Kernel Uniprocessor) : Decidable (lock.Lives kernel) :=
  inferInstanceAs (Decidable (_ = _))

/-- Whoever goes against the rule of a lock is told so, or that the lock is gone. -/
def objection (lock : Lock) (kernel : Kernel Uniprocessor) (complaint : Violation) : Violation :=
  if lock.Lives kernel then complaint else .staleQueue lock.queue

theorem heldIn_masked : lock.HeldIn kernel.masked ↔ lock.HeldIn kernel := by
  unfold HeldIn
  rw [current_masked]
  rfl

theorem lives_of_heldIn (held : lock.HeldIn kernel) : lock.Lives kernel := by
  obtain ⟨queue, live, -⟩ := Option.bind_eq_some_iff.mp held
  exact Option.isSome_iff_exists.mpr ⟨queue, live⟩

/-- The holder finds itself when it asks who owns the lock. -/
theorem owner_of_heldIn (held : lock.HeldIn kernel) :
    Finds (Scheduler.owner lock.queue) kernel (.ok (some (Machine.current kernel.machine))) := by
  obtain ⟨queue, live, owner⟩ := Option.bind_eq_some_iff.mp held
  have live : kernel.tables.queues.get? lock.queue = some queue := live
  have finds := owner_finds lock.queue kernel
  rwa [Tables.queue, live, Except.map, owner] at finds

/-- Anybody else finds somebody else, or nobody. -/
theorem owner_of_lives (lives : lock.Lives kernel) (foreign : ¬ lock.HeldIn kernel) :
    ∃ holder, Finds (Scheduler.owner lock.queue) kernel (.ok holder) ∧
      holder ≠ some (Machine.current kernel.machine) := by
  obtain ⟨queue, live⟩ := Option.isSome_iff_exists.mp lives
  have finds := owner_finds lock.queue kernel
  rw [Tables.queue, live, Except.map] at finds
  refine ⟨queue.owner, finds, fun owner => foreign ?_⟩
  have live : kernel.tables.ledger.queue? lock.queue = some queue := live
  rw [HeldIn, Ledger.owner?_of_queue? live, owner]

theorem owner_of_not_lives (gone : ¬ lock.Lives kernel) :
    Finds (Scheduler.owner lock.queue) kernel (.error (.staleQueue lock.queue)) := by
  have gone : kernel.tables.queues.get? lock.queue = none := by simpa [Lives] using gone
  have finds := owner_finds lock.queue kernel
  rwa [Tables.queue, gone, Except.map] at finds

end Lock

/-! ## What the checks find -/

section

variable {lock : Lock}

theorem acquire_objects (held : lock.HeldIn kernel) :
    Finds lock.acquire kernel (.error (.reacquiresLock (Machine.current kernel.machine))) := by
  have owner := Lock.owner_of_heldIn (Lock.heldIn_masked.mpr held)
  refine .bracketCall (.current (owner.bind_ok fun times => ?_))
  rw [current_masked, if_pos rfl]
  exact .throw _

/-- Whoever does not hold a lock finds out when it asks who does, unless the lock is gone. -/
theorem owner_objects {next : Option ThreadId → KernelM Uniprocessor α} {complaint : Violation}
    (unheld : ¬ lock.HeldIn kernel)
    (refuses : ∀ holder times, holder ≠ some (Machine.current kernel.machine) →
      Finds (next holder) (kernel.counted times) (.error complaint)) :
    Finds (Scheduler.owner lock.queue >>= next) kernel
      (.error (lock.objection kernel complaint)) := by
  unfold Lock.objection
  split
  · rename_i lives
    obtain ⟨holder, owner, other⟩ := Lock.owner_of_lives lives unheld
    exact owner.bind_ok fun times => refuses holder times other
  · rename_i gone
    exact (Lock.owner_of_not_lives gone).bind_error

theorem release_objects (unheld : ¬ lock.HeldIn kernel) :
    Finds lock.release kernel
      (.error (lock.objection kernel (.releasesUnheldLock (Machine.current kernel.machine)))) := by
  refine .bracket (.current ?_)
  rw [current_masked]
  refine owner_objects (mt Lock.heldIn_masked.mp unheld) fun holder times other => ?_
  rw [current_masked] at other
  rw [if_neg other]
  exact .throw _

theorem isHeld_finds (held : lock.HeldIn kernel) : Finds lock.isHeld kernel (.ok true) := by
  refine (Lock.owner_of_heldIn held).bind_ok fun times => .current ?_
  simpa using Finds.pure true

theorem requireHeld_finds (condition : Condition) (operation : String)
    (held : condition.lock.HeldIn kernel) :
    Finds (condition.requireHeld operation) kernel (.ok ()) :=
  (isHeld_finds held).bind_ok fun _ => .pure ()

theorem requireHeld_objects (condition : Condition) (operation : String)
    (unheld : ¬ condition.lock.HeldIn kernel) :
    Finds (condition.requireHeld operation) kernel
      (.error (condition.lock.objection kernel (.conditionUnheld operation))) := by
  unfold Condition.requireHeld Lock.isHeld
  rw [bind_assoc]
  refine owner_objects unheld fun holder times other => ?_
  have differs : Finds (do
      let thread ← currentThread
      return decide (holder = some thread) : KernelM Uniprocessor Bool) (kernel.counted times)
      (.ok false) := by
    refine .current ?_
    simpa [other] using Finds.pure false
  exact differs.bind_ok fun _ => .throw _

/-- Whoever does not hold the lock may take it: it gets it, or sleeps for it. -/
theorem acquire_blameless (lives : lock.Lives kernel) (foreign : ¬ lock.HeldIn kernel) :
    Blameless lock.acquire kernel := by
  have lives : lock.Lives kernel.masked := lives
  obtain ⟨holder, ⟨times, owner⟩, other⟩ :=
    Lock.owner_of_lives lives (mt Lock.heldIn_masked.mp foreign)
  refine .bracketCall (.bind_ok rfl (.bind_ok owner ?_))
  rw [if_neg other]
  split
  · exact .bind (.updateTables (fun tables => (Tables.acquire_tabular tables _ _).map _) _ _)
      fun _ _ _ => .of_ok rfl
  · refine .bind (.updateTables (fun tables => (Tables.enqueue_tabular tables _ _).map _) _ _)
      fun _ after _ => ?_
    exact .bind (.sleep after) fun _ _ _ => .of_ok rfl

theorem release_blameless (held : lock.HeldIn kernel) : Blameless lock.release kernel := by
  obtain ⟨times, owner⟩ := Lock.owner_of_heldIn (Lock.heldIn_masked.mpr held)
  refine .bracket (.bind_ok rfl (.bind_ok owner ?_))
  rw [if_pos rfl]
  refine .bind (.bracket (.updateTables (fun tables => Tables.handOver_tabular tables _) _ _))
    fun winner after _ => ?_
  cases winner with
  | some next => exact .wake next after
  | none => exact .of_ok rfl

end

/-! ## Conditions -/

section

variable {index : Nat} {condition : Condition} (made : kernel.conditions[index]? = some condition)
include made

theorem conditionLookup_ok : Condition.lookup index kernel = .ok condition kernel := by
  rw [Condition.lookup_found]
  show found "condition" index kernel.conditions[index]? kernel = _
  rw [made]
  rfl

theorem waitingAt_ok (off : Machine.interrupts kernel.machine = false) :
    Condition.waitingAt index kernel = .ok condition.waiting kernel :=
  (bind_ok (requireMasked_ok off)).trans (bind_ok (conditionLookup_ok made))

/-- Every use of a condition begins with the same check. -/
theorem condition_objects {operation : String} {next : Condition → Unit → KernelM Uniprocessor α}
    (unheld : ¬ condition.lock.HeldIn kernel) :
    Finds (Condition.lookup index >>= fun condition => condition.requireHeld operation >>=
      next condition)
      kernel (.error (condition.lock.objection kernel (.conditionUnheld operation))) := by
  obtain ⟨times, finds⟩ := (requireHeld_objects condition operation unheld).bind_error
  exact ⟨times, (bind_ok (conditionLookup_ok made)).trans finds⟩

variable (held : condition.lock.HeldIn kernel)
include held

/-- Between the check and the release nobody else can get the lock: it is released by its holder. -/
theorem wait_blameless : Blameless (Condition.wait index) kernel := by
  obtain ⟨times, checked⟩ := requireHeld_finds condition "wait" held
  refine .bind_ok (conditionLookup_ok made) (.bind_ok checked (.bind (.bracketCall ?_)
    fun _ _ _ => .of_ok rfl))
  have off := masked_off (kernel.counted times)
  have still : condition.lock.HeldIn (kernel.counted times).masked := Lock.heldIn_masked.mpr held
  refine .bind_ok rfl (.bind_ok (waitingAt_ok made off) ?_)
  refine .bind_ok (bind_ok (requireMasked_ok off))
    (.bind (release_blameless ?_) fun _ after _ => ?_)
  · exact still
  · exact .bind (.sleep after) fun _ _ _ => .of_ok rfl

theorem signal_blameless : Blameless (Condition.signal index) kernel := by
  obtain ⟨times, checked⟩ := requireHeld_finds condition "signal" held
  refine .bind_ok (conditionLookup_ok made) (.bind_ok checked (.bracket ?_))
  refine .bind_ok (waitingAt_ok made (masked_off (kernel.counted times))) ?_
  cases condition.waiting with
  | nil => exact .of_ok rfl
  | cons first rest => exact .bind (.setWaitingAt index rest _) fun _ after _ => .wake first after

theorem broadcast_blameless : Blameless (Condition.broadcast index) kernel := by
  obtain ⟨times, checked⟩ := requireHeld_finds condition "broadcast" held
  refine .bind_ok (conditionLookup_ok made) (.bind_ok checked (.bracket ?_))
  exact .bind_ok (waitingAt_ok made (masked_off (kernel.counted times)))
    (.wakeLine index condition.waiting _)

end

/-! ## Looking at a predicate first -/

section

variable {index passes : Nat} {predicate : Memory → Bool}

theorem waitWhile_of_holds (holds : predicate kernel.memory = true) :
    Condition.waitWhile index predicate passes kernel =
      (do
        let waited ← Condition.wait index
        return waited.owing [.recheck index predicate (passes + 1)]) kernel := by
  show (if predicate kernel.memory = true then _ else _ : KernelM Uniprocessor Progress) kernel = _
  rw [if_pos holds]

/-- Where there is nothing to wait for, nobody asks who holds the lock. -/
theorem waitWhile_of_fails (fails : predicate kernel.memory = false) :
    Condition.waitWhile index predicate passes kernel =
      .ok (.done (.count (passes + 1))) kernel := by
  show (if predicate kernel.memory = true then _ else _ : KernelM Uniprocessor Progress) kernel = _
  rw [if_neg (by simp [fails])]
  rfl

end

/-! ## Use and misuse -/

/-- What a thread does with a lock, or with a condition under its lock. -/
inductive LockUse
  | acquire (lock : Lock)
  | release (lock : Lock)
  | wait (condition : Nat)
  | waitWhile (condition : Nat) (predicate : Memory → Bool) (passes : Nat)
  | signal (condition : Nat)
  | broadcast (condition : Nat)

namespace LockUse

/-- The use as a call. -/
def perform : LockUse → KernelM Uniprocessor Progress
  | acquire lock => lock.acquire
  | release lock => Request.silently lock.release
  | wait condition => Condition.wait condition
  | waitWhile condition predicate passes => Condition.waitWhile condition predicate passes
  | signal condition => Request.silently (Condition.signal condition)
  | broadcast condition => Request.silently (Condition.broadcast condition)

/-- The lock that a use is about. -/
def lock? (kernel : Kernel Uniprocessor) : LockUse → Option Lock
  | acquire lock | release lock => some lock
  | wait condition | waitWhile condition .. | signal condition | broadcast condition =>
    Condition.lockAt? condition kernel

/-- A lock is taken by those who do not hold it, and everything else is for its holder. -/
def Misused (lock : Lock) (kernel : Kernel Uniprocessor) : LockUse → Prop
  | acquire _ => lock.HeldIn kernel
  | _ => ¬ lock.HeldIn kernel

instance (lock : Lock) (kernel : Kernel Uniprocessor) (use : LockUse) :
    Decidable (use.Misused lock kernel) :=
  match use with
  | acquire _ => inferInstanceAs (Decidable (lock.HeldIn kernel))
  | release _ | wait _ | waitWhile .. | signal _ | broadcast _ =>
    inferInstanceAs (Decidable (¬ lock.HeldIn kernel))

/-- Whether the use gets as far as to look at who holds the lock. -/
def asks (memory : Memory) : LockUse → Bool
  | waitWhile _ predicate _ => predicate memory
  | _ => true

/-- What a thread is told that misuses a lock. -/
def complaint (thread : ThreadId) : LockUse → Violation
  | acquire _ => .reacquiresLock thread
  | release _ => .releasesUnheldLock thread
  | wait _ | waitWhile .. => .conditionUnheld "wait"
  | signal _ => .conditionUnheld "signal"
  | broadcast _ => .conditionUnheld "broadcast"

variable {use : LockUse} {lock : Lock}

theorem condition_of_lockAt? {index : Nat} (about : Condition.lockAt? index kernel = some lock) :
    ∃ condition, kernel.conditions[index]? = some condition ∧ condition.lock = lock :=
  Option.map_eq_some_iff.mp about

/-- A misuse that gets as far as to look is objected to, and nothing has been done. -/
theorem objects (about : use.lock? kernel = some lock) (misused : use.Misused lock kernel)
    (asks : use.asks kernel.memory = true) :
    Finds use.perform kernel
      (.error (lock.objection kernel (use.complaint (Machine.current kernel.machine)))) := by
  cases use with
  | acquire lock =>
    cases about
    rw [Lock.objection, if_pos (Lock.lives_of_heldIn misused)]
    exact acquire_objects misused
  | release lock =>
    cases about
    exact (release_objects misused).bind_error
  | wait index =>
    obtain ⟨condition, made, rfl⟩ := condition_of_lockAt? about
    exact condition_objects made misused
  | waitWhile index predicate passes =>
    obtain ⟨condition, made, rfl⟩ := condition_of_lockAt? about
    obtain ⟨times, finds⟩ := Finds.bind_error (condition_objects made misused)
    exact ⟨times, (waitWhile_of_holds asks).trans finds⟩
  | signal index =>
    obtain ⟨condition, made, rfl⟩ := condition_of_lockAt? about
    exact (condition_objects made misused).bind_error
  | broadcast index =>
    obtain ⟨condition, made, rfl⟩ := condition_of_lockAt? about
    exact (condition_objects made misused).bind_error

/-- Whoever uses a lock that is there as it should is not told otherwise. -/
theorem blameless (about : use.lock? kernel = some lock) (proper : ¬ use.Misused lock kernel)
    (lives : lock.Lives kernel) : Blameless use.perform kernel := by
  cases use with
  | acquire lock =>
    cases about
    exact acquire_blameless lives proper
  | release lock =>
    cases about
    exact .bind (release_blameless (not_not.mp proper)) fun _ _ _ => .of_ok rfl
  | wait index =>
    obtain ⟨condition, made, rfl⟩ := condition_of_lockAt? about
    exact wait_blameless made (not_not.mp proper)
  | waitWhile index predicate passes =>
    obtain ⟨condition, made, rfl⟩ := condition_of_lockAt? about
    cases asks : predicate kernel.memory with
    | true =>
      have waits : Blameless (Condition.wait index) kernel :=
        wait_blameless made (not_not.mp proper)
      intro violation after failed
      exact waits.bind (fun _ _ _ => .of_ok rfl) violation after
        ((waitWhile_of_holds asks).symm.trans failed)
    | false => exact .of_ok (waitWhile_of_fails asks)
  | signal index =>
    obtain ⟨condition, made, rfl⟩ := condition_of_lockAt? about
    exact .bind (signal_blameless made (not_not.mp proper)) fun _ _ _ => .of_ok rfl
  | broadcast index =>
    obtain ⟨condition, made, rfl⟩ := condition_of_lockAt? about
    exact .bind (broadcast_blameless made (not_not.mp proper)) fun _ _ _ => .of_ok rfl

end LockUse

/-- In whatever state the kernel is, whoever calls and whether or not it can be interrupted: a lock
or condition that is used against its rule is not used. The caller is told what it did wrong, or
that the lock is gone, and nothing has changed but the count of maskings; only a thread that has
nothing to wait for is not asked whether it holds the lock. Whoever follows the rule on a lock that
is there is not blamed for anything, however the call ends. -/
theorem misuse_is_caught (use : LockUse) (kernel : Kernel Uniprocessor) (lock : Lock)
    (about : use.lock? kernel = some lock) :
    (use.Misused lock kernel → use.asks kernel.memory = true → ∃ times,
      use.perform kernel =
        .error (lock.objection kernel (use.complaint (Machine.current kernel.machine)))
          (kernel.counted times)) ∧
    (¬ use.Misused lock kernel → lock.Lives kernel →
      ∀ violation after, use.perform kernel = .error violation after → violation.misuse = false) :=
  ⟨LockUse.objects about, LockUse.blameless about⟩

/-- The idle context makes a lock and a condition under it, and takes the lock. -/
def taking : Simulation :=
  .start .default 10 [.request .lock, .request (.condition 0), .request (.lockAcquire 0)]

/-- In step 3 the idle context holds the lock. It cannot take it again, and may wait on the
condition. -/
theorem misuse_is_caught_taking :
    let kernel := (Simulation.steps 3 taking).kernel
    (∃ times, (LockUse.acquire ⟨⟨0⟩⟩).perform kernel =
      .error (.reacquiresLock .idle) (kernel.counted times)) ∧
    ∀ violation after, (LockUse.wait 0).perform kernel = .error violation after →
      violation.misuse = false := by
  intro kernel
  constructor
  · exact (misuse_is_caught (.acquire ⟨⟨0⟩⟩) kernel ⟨⟨0⟩⟩ rfl).1 (by decide +kernel) rfl
  · exact (misuse_is_caught (.wait 0) kernel ⟨⟨0⟩⟩ (by decide +kernel)).2 (by decide +kernel)
      (by decide +kernel)

/-- Not every misuse is caught. In step 2 nobody holds the lock, and the idle context waits on the
condition while a variable that was never written is below zero: the call is over and answers how
often it has looked. -/
theorem unheld_wait_returns :
    let kernel := (Simulation.steps 2 taking).kernel
    let use : LockUse := .waitWhile 0 (fun memory => memory.read 0 < 0) 0
    (use.lock? kernel = some ⟨⟨0⟩⟩ ∧ use.Misused ⟨⟨0⟩⟩ kernel ∧
      use.perform kernel = .ok (.done (.count 1)) kernel) ∧
    ¬ ∀ (use : LockUse) (kernel : Kernel Uniprocessor) (lock : Lock), use.lock? kernel = some lock →
      use.Misused lock kernel → ∃ violation after, use.perform kernel = .error violation after := by
  intro kernel use
  have about : use.lock? kernel = some ⟨⟨0⟩⟩ := by decide +kernel
  have misused : use.Misused ⟨⟨0⟩⟩ kernel := by decide +kernel
  have ok : Condition.waitWhile 0 (fun memory => memory.read 0 < 0) 0 kernel =
      .ok (.done (.count 1)) kernel := waitWhile_of_fails (by decide +kernel)
  refine ⟨⟨about, misused, ok⟩, fun caught => ?_⟩
  obtain ⟨violation, after, failed⟩ := caught use kernel _ about misused
  cases ok.symm.trans failed

end Turnstile
