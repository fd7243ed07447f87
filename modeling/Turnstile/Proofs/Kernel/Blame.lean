import Turnstile.Proofs.Kernel.Brackets
import Turnstile.Proofs.Kernel.Exiting

/-!
# Calls without a trace, and calls without blame

Two things that a call on a machine with one processor can be said to do, in whatever state the
kernel is.

* **`Finds`**: it comes to an end having done nothing but mask interrupts and put them back. That
  leaves a count behind (`Kernel.counted`), and nothing else.
* **`Blameless`**: if it fails, then not because its caller misuses a lock or a condition. The
  tables, the machine and the lines of conditions know of no misuse, and so it is only the checks of
  locks and conditions that can blame anybody.
-/

namespace Turnstile

open Kernel

/-- The violation says that a lock or a condition was used by the wrong thread. -/
def Violation.misuse : Violation → Bool
  | reacquiresLock _ | releasesUnheldLock _ | conditionUnheld _ => true
  | _ => false

theorem Violation.misuse_of_tabular {violation : Violation} (tabular : violation.tabular = true) :
    violation.misuse = false := by
  cases violation <;> first | rfl | cases tabular

/-! ## Looking without a trace -/

/-- The kernel after interrupts have been masked some times more, and put back each time. -/
def Kernel.counted {σ : Type} (kernel : Kernel σ) (times : Nat) : Kernel σ :=
  { kernel with maskings := kernel.maskings + times }

/-- How a computation ends with an outcome. -/
def Kernel.ending {σ α : Type} (outcome : Except Violation α) (kernel : Kernel σ) :
    EStateM.Result Violation (Kernel σ) α :=
  match outcome with
  | .ok a => .ok a kernel
  | .error violation => .error violation kernel

/-- A computation comes to its end having done nothing but mask interrupts and put them back. -/
def Finds {α : Type} (computation : KernelM Uniprocessor α) (kernel : Kernel Uniprocessor)
    (outcome : Except Violation α) : Prop :=
  ∃ times, computation kernel = ending outcome (kernel.counted times)

variable {α β : Type} {kernel : Kernel Uniprocessor}

/-- With the flag put back, only the count tells that interrupts were masked. -/
theorem withInterrupts_masked (kernel : Kernel Uniprocessor) (times : Nat) :
    (kernel.masked.counted times).withInterrupts (Machine.interrupts kernel.machine) =
      kernel.counted (1 + times) := by
  have back : (kernel.machine.setInterrupts false).setInterrupts kernel.machine.interrupts =
      kernel.machine := by
    rw [Uniprocessor.setInterrupts_setInterrupts, Uniprocessor.setInterrupts_interrupts]
  show ({ kernel with
      machine := (kernel.machine.setInterrupts false).setInterrupts kernel.machine.interrupts
      maskings := kernel.maskings + 1 + times } : Kernel Uniprocessor) = _
  rw [back, Nat.add_assoc]
  rfl

/-- In whatever state a kernel is, interrupts are off once they are masked. -/
theorem masked_off (kernel : Kernel Uniprocessor) :
    Machine.interrupts kernel.masked.machine = false :=
  Uniprocessor.interrupts_setInterrupts kernel.machine false

theorem current_masked (kernel : Kernel Uniprocessor) :
    Machine.current kernel.masked.machine = Machine.current kernel.machine :=
  congrArg Stage.current (Uniprocessor.stage_setInterrupts kernel.machine false)

@[simp] theorem current_counted (kernel : Kernel Uniprocessor) (times : Nat) :
    Machine.current (kernel.counted times).machine = Machine.current kernel.machine := rfl

namespace Finds

variable {computation : KernelM Uniprocessor α} {next : α → KernelM Uniprocessor β}
  {outcome : Except Violation α} {violation : Violation}

theorem pure (a : α) : Finds (Pure.pure a) kernel (.ok a) := ⟨0, rfl⟩

theorem throw (violation : Violation) :
    Finds (MonadExcept.throw violation : KernelM Uniprocessor α) kernel (.error violation) :=
      ⟨0, rfl⟩

/-- Asking for the current context goes on with it. -/
theorem current {next : ThreadId → KernelM Uniprocessor α}
    (finds : Finds (next (Machine.current kernel.machine)) kernel outcome) :
    Finds (currentThread >>= next) kernel outcome := finds

theorem bind_ok {a : α} {outcome : Except Violation β} (finds : Finds computation kernel (.ok a))
    (rest : ∀ times, Finds (next a) (kernel.counted times) outcome) :
    Finds (computation >>= next) kernel outcome := by
  obtain ⟨times, finds⟩ := finds
  obtain ⟨more, rest⟩ := rest times
  refine ⟨times + more, (Kernel.bind_ok finds).trans (rest.trans ?_)⟩
  unfold counted
  cases outcome <;> simp only [Nat.add_assoc]

theorem bind_error (finds : Finds computation kernel (.error violation)) :
    Finds (computation >>= next) kernel (.error violation) := by
  obtain ⟨times, finds⟩ := finds
  refine ⟨times, ?_⟩
  show EStateM.bind computation next kernel = _
  rw [EStateM.bind, finds]
  rfl

theorem bracket (finds : Finds computation kernel.masked outcome) :
    Finds (Kernel.bracket computation) kernel outcome := by
  obtain ⟨times, finds⟩ := finds
  refine ⟨1 + times, ?_⟩
  unfold Kernel.bracket
  rw [finds, ← withInterrupts_masked]
  cases outcome <;> rfl

theorem bracketCall {body : KernelM Uniprocessor Progress}
    (finds : Finds body kernel.masked (.error violation)) :
    Finds (Kernel.bracketCall body) kernel (.error violation) := by
  obtain ⟨times, finds⟩ := finds
  refine ⟨1 + times, ?_⟩
  unfold Kernel.bracketCall
  rw [finds, ← withInterrupts_masked]
  rfl

end Finds

theorem owner_finds (id : QueueId) (kernel : Kernel Uniprocessor) :
    Finds (Scheduler.owner id) kernel ((kernel.tables.queue id).map (·.owner)) := by
  have looks :
    Finds (readTables "owner" fun tables => (tables.queue id).map (·.owner)) kernel.masked
      ((kernel.tables.queue id).map (·.owner)) := by
    refine ⟨0, (bind_ok (requireMasked_ok (masked_off kernel))).trans ?_⟩
    dsimp only
    rw [show kernel.masked.tables = kernel.tables from rfl]
    cases (kernel.tables.queue id).map (·.owner) <;> rfl
  exact looks.bracket

/-! ## Calls without a blame -/

/-- If the computation fails, then not because somebody misuses a lock or a condition. -/
def Blameless {α : Type} (computation : KernelM Uniprocessor α) (kernel : Kernel Uniprocessor) :
    Prop :=
  ∀ violation after, computation kernel = .error violation after → violation.misuse = false

namespace Blameless

variable {computation : KernelM Uniprocessor α} {next : α → KernelM Uniprocessor β}

theorem of_ok {a : α} {after : Kernel Uniprocessor} (ok : computation kernel = .ok a after) :
    Blameless computation kernel := by
  intro violation last failed
  cases ok.symm.trans failed

theorem of_error {violation : Violation} {after : Kernel Uniprocessor}
    (failed : computation kernel = .error violation after) (other : violation.misuse = false) :
    Blameless computation kernel := by
  intro violation' last failed'
  cases failed.symm.trans failed'
  exact other

theorem bind (first : Blameless computation kernel)
    (rest : ∀ a after, computation kernel = .ok a after → Blameless (next a) after) :
    Blameless (computation >>= next) kernel := by
  intro violation last failed
  have failed : EStateM.bind computation next kernel = .error violation last := failed
  unfold EStateM.bind at failed
  split at failed
  · rename_i a after ok
    exact rest a after ok violation last failed
  · rename_i ended
    cases failed
    exact first _ _ ended

/-- What a computation answers and leaves is known: it goes on with that. -/
theorem bind_ok {a : α} {after : Kernel Uniprocessor} (ok : computation kernel = .ok a after)
    (rest : Blameless (next a) after) : Blameless (computation >>= next) kernel := by
  intro violation last failed
  exact rest violation last ((Kernel.bind_ok ok).symm.trans failed)

theorem bracket (body : Blameless computation kernel.masked) :
    Blameless (Kernel.bracket computation) kernel := by
  intro violation last failed
  unfold Kernel.bracket at failed
  dsimp only at failed
  split at failed
  · cases failed
  · rename_i ended
    cases failed
    exact body _ _ ended

theorem bracketCall {body : KernelM Uniprocessor Progress}
    (blameless : Blameless body kernel.masked) :
    Blameless (Kernel.bracketCall body) kernel := by
  intro violation last failed
  unfold Kernel.bracketCall at failed
  dsimp only at failed
  split at failed
  · cases failed
  · cases failed
  · cases failed
  · rename_i ended
    cases failed
    exact blameless _ _ ended

theorem requireMasked (operation : String) (kernel : Kernel Uniprocessor) :
    Blameless (Kernel.requireMasked operation) kernel := by
  unfold Blameless Kernel.requireMasked
  intro violation last failed
  split at failed
  · cases failed
    rfl
  · cases failed

theorem updateTables {f : Tables → Except Violation (α × Tables)}
    (tabular : ∀ tables, Tabular (f tables))
    (operation : String) (kernel : Kernel Uniprocessor) :
    Blameless (Kernel.updateTables operation f) kernel := by
  refine (requireMasked operation kernel).bind fun _ after _ => ?_
  intro violation last failed
  dsimp only at failed
  split at failed
  · cases failed
  · rename_i found
    cases failed
    exact Violation.misuse_of_tabular (tabular _ _ found)

/-- Whoever goes to sleep hears of the machine at most. -/
theorem sleep (kernel : Kernel Uniprocessor) : Blameless Kernel.sleep kernel := by
  refine (requireMasked "sleep" kernel).bind fun _ after _ => ?_
  have slept : ∀ violation, after.machine.sleep = .error violation → violation.misuse = false := by
    intro violation failed
    rcases after.machine.sleep_cases with masked | idle | ⟨_, _, _, ok, _⟩
    · cases masked.symm.trans failed
      rfl
    · cases idle.symm.trans failed
      rfl
    · cases ok.symm.trans failed
  show Blameless machineSleep after
  unfold machineSleep
  cases outcome : Machine.sleep after.machine with
  | ok machine => exact of_ok (by rw [outcome])
  | error violation => exact of_error (by rw [outcome]) (slept violation outcome)

theorem wake (thread : ThreadId) (kernel : Kernel Uniprocessor) :
    Blameless (Kernel.wake thread) kernel := by
  refine (requireMasked "ready" kernel).bind fun _ after _ => ?_
  have woken : ∀ violation, after.machine.wake thread = .error violation →
    violation.misuse = false := by
    intro violation failed
    unfold Uniprocessor.wake at failed
    split at failed
    · cases failed
      rfl
    · split at failed
      · cases failed
      · cases failed
        rfl
  show Blameless (machineReady thread) after
  unfold machineReady
  cases outcome : Machine.ready thread after.machine with
  | ok machine => exact of_ok (by rw [outcome])
  | error violation => exact of_error (by rw [outcome]) (woken violation outcome)

theorem setWaitingAt (index : Nat) (threads : List ThreadId) (kernel : Kernel Uniprocessor) :
    Blameless (Condition.setWaitingAt index threads) kernel :=
  (requireMasked "condition" kernel).bind fun _ _ _ => of_ok rfl

theorem wakeLine (index : Nat) (threads : List ThreadId) (kernel : Kernel Uniprocessor) :
    Blameless (Condition.wakeLine index threads) kernel := by
  induction threads generalizing kernel with
  | nil => exact of_ok rfl
  | cons first rest ih =>
    refine (setWaitingAt index rest kernel).bind fun _ after _ => ?_
    exact (wake first after).bind fun _ after _ => ih after

end Blameless

end Turnstile
