import Turnstile.Kernel.Resume
import Turnstile.Proofs.Machine.Flags

/-!
# The discipline of calls

How calls may deal with interrupts, whatever they do besides.

* **`Tame`**: a computation that keeps the processor. It looks at the tables, at the lines of
  conditions and at the sleepers, changes them, and wakes threads only with interrupts masked; it is
  made of pieces that have no part in these things (`Private`), pieces that refuse to go on unmasked
  (`Guarded`), and brackets.
* **`Disciplined`**: a call, which besides may sleep with interrupts masked, yield, and end
  its thread.

On a lawful machine a tame computation leaves everybody's flag as it found it (`Tame.keeps`), and a
disciplined call its caller's, as soon as it has done what it owes (`Disciplined.settles`,
`Kernel.resume_settles`). Neither is ever told to mask interrupts, and on a watched machine both
sleep and wake others with their flag off (`Disciplined.watched`).
-/

namespace Turnstile

/-- The violation says that its caller had interrupts on. -/
def Violation.exposed : Violation → Bool
  | interruptsEnabled _ => true
  | _ => false

/-- What threads share under brackets. -/
structure Shared where
  tables : Tables
  /-- Who waits on the condition in a place of the kernel's list. -/
  line : Nat → List ThreadId
  sleepers : SleepQueue

/-- Put other shared things in place. -/
def Kernel.withShared {σ : Type} (shared : Shared) (kernel : Kernel σ) : Kernel σ :=
  { kernel with
    tables := shared.tables
    sleepers := shared.sleepers
    conditions := kernel.conditions.mapIdx fun index condition =>
      { condition with waiting := shared.line index } }

/-- The kernel that a computation leaves, be it with an answer or a violation. -/
def Kernel.leftBy {σ α : Type} : EStateM.Result Violation (Kernel σ) α → Kernel σ
  | .ok _ kernel => kernel
  | .error _ kernel => kernel

open Kernel

section

variable {σ α β : Type}

/-- A computation that has no part in what is shared, nor in the machine: it does the same whatever
is shared, and leaves that as it is. -/
structure Private (computation : KernelM σ α) : Prop where
  machine : ∀ kernel, (leftBy (computation kernel)).machine = kernel.machine
  blind : ∀ kernel shared, computation (kernel.withShared shared) =
    match computation kernel with
    | .ok a after => .ok a (after.withShared shared)
    | .error violation after => .error violation (after.withShared shared)
  fails : ∀ kernel violation after, computation kernel = .error violation after →
    violation.exposed = false

/-- Reading what is not shared. -/
def Kernel.reads (f : Kernel σ → α) : KernelM σ α := fun kernel => .ok (f kernel) kernel

theorem Private.reads {f : Kernel σ → α}
    (blind : ∀ kernel shared, f (kernel.withShared shared) = f kernel) :
    Private (Kernel.reads f) where
  machine _ := rfl
  blind kernel shared := by
    show EStateM.Result.ok _ _ = _
    rw [blind]
    rfl
  fails _ _ _ failed := by cases failed

theorem Private.writes {f : Kernel σ → Kernel σ}
    (machine : ∀ kernel, (f kernel).machine = kernel.machine)
    (blind : ∀ kernel shared, f (kernel.withShared shared) = (f kernel).withShared shared) :
    Private (modify f) where
  machine := machine
  blind kernel shared := by
    show EStateM.Result.ok _ _ = _
    rw [blind]
    rfl
  fails _ _ _ failed := by cases failed

theorem Private.pure (a : α) : Private (Pure.pure a : KernelM σ α) :=
  ⟨fun _ => rfl, fun _ _ => rfl, fun _ _ _ failed => by cases failed⟩

theorem Private.throw {violation : Violation} (other : violation.exposed = false) :
    Private (MonadExcept.throw violation : KernelM σ α) :=
  ⟨fun _ => rfl, fun _ _ => rfl, fun _ _ _ failed => by cases failed; exact other⟩

variable [Machine σ]

/-- A computation that refuses to go on with interrupts on, and otherwise leaves the machine alone,
so that they are masked from its beginning to its end. -/
structure Guarded (computation : KernelM σ α) : Prop where
  refuses : ∀ kernel, Machine.interrupts kernel.machine = true →
    ∃ operation, computation kernel = .error (.interruptsEnabled operation) kernel
  machine : ∀ kernel, (leftBy (computation kernel)).machine = kernel.machine
  goes : ∀ kernel violation after, Machine.interrupts kernel.machine = false →
    computation kernel = .error violation after → violation.exposed = false

/-- A computation that keeps the processor and touches what is shared only with interrupts masked.
They are known to be masked if `masked` is true. -/
inductive Tame : (masked : Bool) → {α : Type} → KernelM σ α → Prop
  | own {masked : Bool} {α : Type} {computation : KernelM σ α} (own : Private computation) :
    Tame masked computation
  | guarded {α : Type} {computation : KernelM σ α} (guarded : Guarded computation) :
    Tame true computation
  | wake (thread : ThreadId) : Tame true (Kernel.wake thread)
  /-- A condition is made, with a line in which nobody stands. -/
  | creates {masked : Bool} (lock : Lock) : Tame masked (Condition.create lock)
  | bind {masked : Bool} {α β : Type} {computation : KernelM σ α} {next : α → KernelM σ β}
    (first : Tame masked computation) (rest : ∀ a, Tame masked (next a)) :
    Tame masked (computation >>= next)
  | bracket {masked : Bool} {α : Type} {body : KernelM σ α} (tame : Tame true body) :
    Tame masked (Kernel.bracket body)

/-- Whether a task is something else than to put a flag back. -/
def Task.plain : Task → Bool
  | leave _ => false
  | _ => true

/-- A call that touches what is shared, sleeps, and ends its thread only with interrupts masked. -/
inductive Disciplined : (masked : Bool) → KernelM σ Progress → Prop
  | done {masked : Bool} (reply : Reply) : Disciplined masked (pure (.done reply))
  | throws {masked : Bool} {violation : Violation} (other : violation.exposed = false) :
    Disciplined masked (throw violation)
  | bind {masked : Bool} {α : Type} {computation : KernelM σ α} {next : α → KernelM σ Progress}
    (first : Tame masked computation) (rest : ∀ a, Disciplined masked (next a)) :
    Disciplined masked (computation >>= next)
  | sleeps (owed : List Task) (plain : ∀ task ∈ owed, task.plain = true) :
    Disciplined true (Kernel.sleep >>= fun _ => pure (.switched owed))
  | yields {masked : Bool} {kept : KernelM σ Progress} (owed : List Task)
    (plain : ∀ task ∈ owed, task.plain = true) (disciplined : Disciplined masked kept) :
    Disciplined masked (machineYield >>= fun keeps =>
      if keeps then kept else pure (.switched owed))
  | finishes : Disciplined true (requireMasked "finish" >>= fun _ => pure .finished)
  | owing {masked : Bool} {call : KernelM σ Progress} (owed : List Task)
    (plain : ∀ task ∈ owed, task.plain = true) (disciplined : Disciplined masked call) :
    Disciplined masked (call >>= fun progress => pure (progress.owing owed))
  | bracketCall {masked : Bool} {body : KernelM σ Progress}
    (disciplined : Disciplined true body) :
    Disciplined masked (Kernel.bracketCall body)

end

/-! ## Flags -/

section

variable {σ : Type} [LawfulMachine σ]

open LawfulMachine Machine

/-- The same context has the processor, and nobody's flag is different. -/
structure SameFlags (machine after : σ) : Prop where
  proper : Proper after
  caller : current after = current machine
  flags : ∀ thread, flag thread after = flag thread machine

variable {machine mid after : σ}

theorem SameFlags.refl (proper : Proper machine) : SameFlags machine machine :=
  ⟨proper, rfl, fun _ => rfl⟩

theorem SameFlags.of_eq (proper : Proper machine) (same : after = machine) :
    SameFlags machine after :=
  same.symm ▸ .refl proper

theorem SameFlags.trans (first : SameFlags machine mid) (second : SameFlags mid after) :
    SameFlags machine after :=
  ⟨second.proper, second.caller.trans first.caller,
    fun thread => (second.flags thread).trans (first.flags thread)⟩

theorem SameFlags.interrupts_eq (same : SameFlags machine after) (proper : Proper machine) :
    interrupts after = interrupts machine := by
  rw [LawfulMachine.interrupts_eq same.proper, LawfulMachine.interrupts_eq proper, same.caller,
    same.flags]

/-- Whoever has masked interrupts can be interrupted by nobody. -/
theorem interrupts_masked {kernel : Kernel σ} (proper : Proper kernel.machine) :
    interrupts kernel.masked.machine = false := by
  have proper' : Proper kernel.masked.machine := setInterrupts_proper proper false
  rw [LawfulMachine.interrupts_eq proper']
  show flag (current (setInterrupts false kernel.machine))
    (setInterrupts false kernel.machine) = false
  rw [current_setInterrupts proper, flag_setInterrupts proper, if_pos rfl]

/-- A flag that was masked and put back is as before. -/
theorem SameFlags.bracket {kernel last : Kernel σ} (proper : Proper kernel.machine)
    (same : SameFlags kernel.masked.machine last.machine) :
    SameFlags kernel.machine (last.withInterrupts (interrupts kernel.machine)).machine := by
  have caller : current last.machine = current kernel.machine :=
    same.caller.trans (current_setInterrupts proper false)
  refine ⟨setInterrupts_proper same.proper _,
    (current_setInterrupts same.proper _).trans caller, fun thread => ?_⟩
  show flag thread (setInterrupts _ last.machine) = _
  rw [flag_setInterrupts same.proper, caller]
  split
  · rename_i here
    rw [LawfulMachine.interrupts_eq proper, here]
  · rename_i other
    rw [same.flags]
    exact (flag_setInterrupts proper false thread).trans (if_neg other)

/-- A tame computation leaves everybody's flag as it was, and is not told to mask interrupts. -/
theorem Tame.keeps {masked : Bool} {α : Type} {computation : KernelM σ α}
    (tame : Tame masked computation) {kernel : Kernel σ} (proper : Proper kernel.machine)
    (off : masked = true → interrupts kernel.machine = false) :
    SameFlags kernel.machine (leftBy (computation kernel)).machine ∧
      ∀ violation after, computation kernel = .error violation after →
        violation.exposed = false := by
  induction tame generalizing kernel with
  | own own => exact ⟨.of_eq proper (own.machine kernel), own.fails kernel⟩
  | guarded guarded =>
    exact ⟨.of_eq proper (guarded.machine kernel), fun violation after =>
      guarded.goes kernel violation after (off rfl)⟩
  | wake thread =>
    have off := off rfl
    have woken : Kernel.wake thread kernel = machineReady thread kernel := by
      show EStateM.bind (requireMasked "ready") _ kernel = _
      simp [EStateM.bind, requireMasked, off]
    rw [woken]
    unfold machineReady
    cases readied : ready thread kernel.machine with
    | ok after =>
      refine ⟨⟨ready_proper proper readied, current_ready proper readied,
        flag_ready proper readied⟩, ?_⟩
      intro violation after failed
      cases failed
    | error violation =>
      refine ⟨.refl proper, fun violation' after failed => ?_⟩
      cases failed
      cases violation with
      | interruptsEnabled operation => exact absurd readied (ready_masked off)
      | _ => rfl
  | creates lock => exact ⟨.refl proper, fun violation after failed => by cases failed⟩
  | @bind masked α β computation next first rest ih ihs =>
    obtain ⟨same, fails⟩ := ih proper off
    show SameFlags _ (leftBy (EStateM.bind computation next kernel)).machine ∧
      ∀ _ _, EStateM.bind computation next kernel = _ → _
    unfold EStateM.bind
    cases outcome : computation kernel with
    | ok a mid =>
      rw [outcome] at same
      have on := ihs a same.proper fun known => (same.interrupts_eq proper).trans (off known)
      exact ⟨same.trans on.1, on.2⟩
    | error violation mid =>
      rw [outcome] at same
      refine ⟨same, fun violation' after failed => ?_⟩
      cases failed
      exact fails _ _ outcome
  | @bracket masked α body tame ih =>
    have masked : Proper kernel.masked.machine := setInterrupts_proper proper false
    obtain ⟨same, fails⟩ := ih masked fun _ => interrupts_masked proper
    unfold Kernel.bracket
    dsimp only
    cases outcome : body kernel.masked with
    | ok a last =>
      rw [outcome] at same
      exact ⟨same.bracket proper, fun violation after failed => by cases failed⟩
    | error violation last =>
      rw [outcome] at same
      refine ⟨same.bracket proper, fun violation' after failed => ?_⟩
      cases failed
      exact fails _ _ outcome

/-- The flag after what is owed has been put back. -/
def Task.restored (enabled : Bool) : List Task → Bool
  | [] => enabled
  | leave saved :: rest => restored saved rest
  | _ :: rest => restored enabled rest

theorem Task.restored_append (enabled : Bool) (owed rest : List Task) :
    restored enabled (owed ++ rest) = restored (restored enabled owed) rest := by
  induction owed generalizing enabled with
  | nil => rfl
  | cons task owed ih => cases task <;> exact ih _

theorem Task.restored_of_plain {owed : List Task} (plain : ∀ task ∈ owed, task.plain = true)
    (enabled : Bool) : restored enabled owed = enabled := by
  induction owed with
  | nil => rfl
  | cons task owed ih =>
    have rest := ih fun task h => plain task (List.mem_cons_of_mem _ h)
    cases task with
    | leave saved => exact absurd (plain _ List.mem_cons_self) Bool.false_ne_true
    | confirm | acquire | recheck | wakeDue => exact rest

/-- What a call that has come so far still has to do. -/
def Progress.owes : Progress → List Task
  | switched owed => owed
  | _ => []

/-- A call has come so far. Its caller's flag will be `enabled` when it has done what it owes, and
the flags of the others are as they were. -/
structure Balanced (enabled : Bool) (machine : σ) (progress : Progress) (after : σ) : Prop where
  proper : Proper after
  own : Task.restored (flag (current machine) after) progress.owes = enabled
  others : ∀ thread, thread ≠ current machine → flag thread after = flag thread machine
  caller : (∀ owed, progress ≠ .switched owed) → current after = current machine

/-- What is said of the flags where a call comes to a halt. -/
def Settles (enabled : Bool) (machine : σ) : EStateM.Result Violation (Kernel σ) Progress → Prop
  | .ok progress after => Balanced enabled machine progress after.machine
  | .error violation after =>
    Balanced enabled machine .finished after.machine ∧ violation.exposed = false

theorem SameFlags.balanced (same : SameFlags machine after) {progress : Progress}
    (owes : progress.owes = []) :
    Balanced (flag (current machine) machine) machine progress after where
  proper := same.proper
  own := by
    rw [owes]
    exact same.flags _
  others thread _ := same.flags thread
  caller _ := same.caller

/-- What comes after a tame beginning counts from its end. -/
theorem SameFlags.settles (same : SameFlags machine mid)
    {result : EStateM.Result Violation (Kernel σ) Progress}
    (settles : Settles (flag (current mid) mid) mid result) :
    Settles (flag (current machine) machine) machine result := by
  have balanced : ∀ progress after, Balanced (flag (current mid) mid) mid progress after →
      Balanced (flag (current machine) machine) machine progress after := by
    rintro progress after ⟨proper, own, others, caller⟩
    rw [same.caller] at own others caller
    exact ⟨proper, own.trans (same.flags _), fun thread other =>
      (others thread other).trans (same.flags thread), caller⟩
  cases result with
  | ok progress after => exact balanced _ _ settles
  | error violation after => exact ⟨balanced _ _ settles.1, settles.2⟩

theorem Balanced.owing {enabled : Bool} {progress : Progress} {owed : List Task}
    (balanced : Balanced enabled machine progress after)
    (plain : ∀ task ∈ owed, task.plain = true) :
    Balanced enabled machine (progress.owing owed) after := by
  cases progress with
  | switched before =>
    refine ⟨balanced.proper, ?_, balanced.others, fun on => absurd rfl (on _)⟩
    show Task.restored _ (before ++ owed) = enabled
    rw [Task.restored_append, Task.restored_of_plain plain]
    exact balanced.own
  | done reply => exact balanced
  | finished => exact balanced

theorem Settles.owing {enabled : Bool} {owed : List Task} {call : KernelM σ Progress}
    {kernel : Kernel σ}
    (plain : ∀ task ∈ owed, task.plain = true) (settles : Settles enabled machine (call kernel)) :
    Settles enabled machine ((call >>= fun progress => pure (progress.owing owed)) kernel) := by
  show Settles _ _ (EStateM.bind call _ kernel)
  unfold EStateM.bind
  cases outcome : call kernel with
  | ok progress after =>
    rw [outcome] at settles
    exact Balanced.owing settles plain
  | error violation after =>
    rw [outcome] at settles
    exact settles

/-- Whoever sleeps leaves the flags alone, and does not owe any of them. -/
theorem sleep_settles {owed : List Task} (plain : ∀ task ∈ owed, task.plain = true)
    {kernel : Kernel σ} (proper : Proper kernel.machine) (off : interrupts kernel.machine = false) :
    Settles (flag (current kernel.machine) kernel.machine) kernel.machine
      ((Kernel.sleep >>= fun _ => pure (.switched owed) : KernelM σ Progress) kernel) := by
  have slept : (Kernel.sleep >>= fun _ => pure (.switched owed) : KernelM σ Progress) kernel =
      match machineSleep kernel with
      | .ok _ after => .ok (.switched owed) after
      | .error violation after => .error violation after := by
    show EStateM.bind (EStateM.bind (requireMasked "sleep") _) _ kernel = _
    simp only [EStateM.bind, requireMasked, off, Bool.false_eq_true, if_false]
    cases machineSleep kernel <;> rfl
  rw [slept]
  unfold machineSleep
  cases outcome : sleep kernel.machine with
  | ok after =>
    refine ⟨sleep_proper proper outcome, ?_, fun thread _ => flag_sleep proper outcome thread,
      fun on => absurd rfl (on _)⟩
    exact (Task.restored_of_plain plain _).trans (flag_sleep proper outcome _)
  | error violation =>
    refine ⟨(SameFlags.refl proper).balanced rfl, ?_⟩
    cases violation with
    | interruptsEnabled operation => exact absurd outcome (sleep_masked off)
    | _ => rfl

/-- A call that is over puts its caller's flag back itself. -/
theorem Balanced.bracket {kernel last : Kernel σ} (proper : Proper kernel.machine)
    {progress : Progress}
    (owes : progress.owes = [])
    (balanced : Balanced (flag (current kernel.masked.machine) kernel.masked.machine)
      kernel.masked.machine .finished last.machine) :
    Balanced (flag (current kernel.machine) kernel.machine) kernel.machine progress
      (last.withInterrupts (interrupts kernel.machine)).machine := by
  have flags : ∀ thread, flag thread last.machine = flag thread kernel.masked.machine := by
    intro thread
    by_cases here : thread = current kernel.masked.machine
    · rw [here]
      exact balanced.own
    · exact balanced.others thread here
  have same : SameFlags kernel.masked.machine last.machine :=
    ⟨balanced.proper, balanced.caller (by simp), flags⟩
  exact (same.bracket proper).balanced owes

/-- What is done with interrupts masked puts its caller's flag back, or owes as much. -/
theorem Settles.bracketCall {body : KernelM σ Progress} {kernel : Kernel σ}
    (proper : Proper kernel.machine)
    (settles : Settles (flag (current kernel.masked.machine) kernel.masked.machine)
      kernel.masked.machine (body kernel.masked)) :
    Settles (flag (current kernel.machine) kernel.machine) kernel.machine
      (Kernel.bracketCall body kernel) := by
  have masks : current kernel.masked.machine = current kernel.machine :=
    current_setInterrupts proper false
  unfold Kernel.bracketCall
  dsimp only
  cases outcome : body kernel.masked with
  | ok progress last =>
    rw [outcome] at settles
    cases progress with
    | switched owed =>
      refine ⟨settles.proper, ?_, fun thread other => ?_, fun on => absurd rfl (on _)⟩
      · show Task.restored _ (owed ++ [.leave (interrupts kernel.machine)]) = _
        rw [Task.restored_append]
        exact LawfulMachine.interrupts_eq proper
      · exact (settles.others thread (masks ▸ other)).trans
          ((flag_setInterrupts proper false thread).trans (if_neg other))
    | done reply => exact .bracket proper rfl ⟨settles.proper, settles.own, settles.others,
        fun _ => settles.caller (by simp)⟩
    | finished => exact .bracket proper rfl settles
  | error violation last =>
    rw [outcome] at settles
    exact ⟨settles.1.bracket proper rfl, settles.2⟩

/-- A disciplined call leaves its caller's flag as it was, or owes as much, and is not told to mask
interrupts. -/
theorem Disciplined.settles {masked : Bool} {call : KernelM σ Progress}
    (disciplined : Disciplined masked call) {kernel : Kernel σ} (proper : Proper kernel.machine)
    (off : masked = true → interrupts kernel.machine = false) :
    Settles (flag (current kernel.machine) kernel.machine) kernel.machine (call kernel) := by
  induction disciplined generalizing kernel with
  | done reply =>
    show Balanced _ _ (.done reply) kernel.machine
    exact (SameFlags.refl proper).balanced rfl
  | throws other => exact ⟨(SameFlags.refl proper).balanced rfl, other⟩
  | @bind masked α computation next first rest ih =>
    obtain ⟨same, fails⟩ := first.keeps proper off
    show Settles _ _ (EStateM.bind computation next kernel)
    unfold EStateM.bind
    cases outcome : computation kernel with
    | ok a mid =>
      rw [outcome] at same
      exact same.settles
        (ih a same.proper fun known => (same.interrupts_eq proper).trans (off known))
    | error violation mid =>
      rw [outcome] at same
      exact ⟨same.balanced rfl, fails _ _ outcome⟩
  | sleeps owed plain => exact sleep_settles plain proper (off rfl)
  | @yields masked kept owed plain disciplined ih =>
    show Settles _ _ ((if (yield kernel.machine).1 then kept else pure (.switched owed))
      { kernel with machine := (yield kernel.machine).2 })
    have flags : ∀ thread, flag thread (yield kernel.machine).2 = flag thread kernel.machine :=
      flag_yield proper
    split
    · rename_i keeps
      have same : SameFlags kernel.machine (yield kernel.machine).2 :=
        ⟨yield_proper proper, current_yield proper keeps, flags⟩
      have proper' :
        Proper ({ kernel with machine := (yield kernel.machine).2 } : Kernel σ).machine :=
        same.proper
      exact same.settles (ih proper' fun known => (same.interrupts_eq proper).trans (off known))
    · refine ⟨yield_proper proper, ?_, fun thread _ => flags thread, fun on => absurd rfl (on _)⟩
      exact (Task.restored_of_plain plain _).trans (flags _)
  | finishes =>
    have finished :
      (requireMasked "finish" >>= fun _ => pure .finished : KernelM σ Progress) kernel =
        .ok .finished kernel := by
      show EStateM.bind (requireMasked "finish") _ kernel = _
      simp only [EStateM.bind, requireMasked, off rfl, Bool.false_eq_true, if_false]
      rfl
    rw [finished]
    exact (SameFlags.refl proper).balanced rfl
  | owing owed plain disciplined ih => exact (ih proper off).owing plain
  | bracketCall disciplined ih =>
    exact (ih (setInterrupts_proper proper false) fun _ => interrupts_masked proper).bracketCall
      proper

/-! ## Going on with a call -/

/-- The flags that are put back when a call is given up. -/
theorem Kernel.unwind_balanced (owed : List Task) {kernel : Kernel σ}
    (proper : Proper kernel.machine) :
    Balanced (Task.restored (flag (current kernel.machine) kernel.machine) owed)
      kernel.machine .finished
      (unwind owed kernel).machine := by
  induction owed generalizing kernel with
  | nil => exact (SameFlags.refl proper).balanced rfl
  | cons task rest ih =>
    cases task with
    | leave saved =>
      have proper' : Proper (kernel.withInterrupts saved).machine :=
        setInterrupts_proper proper saved
      have caller : current (kernel.withInterrupts saved).machine = current kernel.machine :=
        current_setInterrupts proper saved
      obtain ⟨proper'', own, others, stays⟩ := ih proper'
      have mine : flag (current kernel.machine) (kernel.withInterrupts saved).machine = saved :=
        (flag_setInterrupts proper saved _).trans (if_pos rfl)
      rw [caller, mine] at own
      rw [caller] at others stays
      exact ⟨proper'', own, fun thread other => (others thread other).trans
        ((flag_setInterrupts proper saved thread).trans (if_neg other)), stays⟩
    | confirm | acquire | recheck | wakeDue => exact ih proper

/-- What comes after the end of a task counts from its beginning. -/
theorem Balanced.trans {enabled last : Bool} {progress progress' : Progress}
    (first : Balanced enabled machine progress mid) (ending : ∀ owed, progress ≠ .switched owed)
    (second : Balanced last mid progress' after) : Balanced last machine progress' after := by
  have caller := first.caller ending
  obtain ⟨proper, own, others, stays⟩ := second
  rw [caller] at own others stays
  exact ⟨proper, own, fun thread other => (others thread other).trans (first.others thread other),
    stays⟩

/-- When a task is over, its caller's flag is what the task leaves. -/
theorem Balanced.mine {enabled : Bool} {progress : Progress}
    (balanced : Balanced enabled machine progress after) (ending : progress.owes = []) :
    flag (current machine) after = enabled := by
  have own := balanced.own
  rw [ending] at own
  exact own

theorem Task.leave_settles (saved : Bool) {kernel : Kernel σ} (proper : Proper kernel.machine) :
    Settles saved kernel.machine ((Task.leave saved).run kernel) := by
  show Balanced saved kernel.machine (.done .nothing) (setInterrupts saved kernel.machine)
  exact ⟨setInterrupts_proper proper saved, (flag_setInterrupts proper saved _).trans (if_pos rfl),
    fun thread other => (flag_setInterrupts proper saved thread).trans (if_neg other),
    fun _ => current_setInterrupts proper saved⟩

/-- A call that goes on leaves its caller's flag as what it owes says, or owes as much. -/
theorem Kernel.resume_settles
    (runs : ∀ task : Task, task.plain = true → Disciplined false (task.run (σ := σ)))
    (owed : List Task) (reply : Reply) {kernel : Kernel σ} (proper : Proper kernel.machine) :
    Settles (Task.restored (flag (current kernel.machine) kernel.machine) owed) kernel.machine
      (resume reply owed kernel) := by
  induction owed generalizing reply kernel with
  | nil =>
    show Balanced _ _ (.done reply) kernel.machine
    exact (SameFlags.refl proper).balanced rfl
  | cons task rest ih =>
    have first : Settles (Task.restored (flag (current kernel.machine) kernel.machine) [task])
        kernel.machine (task.run kernel) := by
      cases task with
      | leave saved => exact Task.leave_settles saved proper
      | confirm | acquire | recheck | wakeDue => exact (runs _ rfl).settles proper (by simp)
    rw [← List.singleton_append, Task.restored_append]
    generalize Task.restored (flag (current kernel.machine) kernel.machine) [task] =
      enabled at first
    simp only [List.singleton_append, resume]
    -- A call that has ended, by a violation or not, has its flags put back from there.
    have ends : ∀ last : Kernel σ, Balanced enabled kernel.machine .finished last.machine →
        Balanced (Task.restored enabled rest) kernel.machine .finished
          (unwind rest last).machine := by
      intro last balanced
      have unwound := unwind_balanced rest balanced.proper
      rw [balanced.caller (by simp), balanced.mine rfl] at unwound
      exact balanced.trans (by simp) unwound
    cases outcome : task.run kernel with
    | ok progress last =>
      rw [outcome] at first
      cases progress with
      | done reply =>
        have others := ih reply first.proper
        rw [first.caller (by simp), first.mine rfl] at others
        dsimp only
        cases goes : resume reply rest last with
        | ok progress after =>
          rw [goes] at others
          exact first.trans (by simp) others
        | error violation after =>
          rw [goes] at others
          exact ⟨first.trans (by simp) others.1, others.2⟩
      | switched owed =>
        refine ⟨first.proper, ?_, first.others, fun on => absurd rfl (on _)⟩
        show Task.restored _ (owed ++ rest) = _
        rw [Task.restored_append]
        exact congrArg (Task.restored · rest) first.own
      | finished => exact ends last first
    | error violation last =>
      rw [outcome] at first
      exact ⟨ends last first.1, first.2⟩

end

/-! ## Watched machines -/

section

variable {σ : Type}

/-- Whoever has slept or woken others in between had interrupts masked. -/
def Watched.Off (watched after : Watched σ) : Prop :=
  ∃ flags, after.flags = flags ++ watched.flags ∧ ∀ flag ∈ flags, flag = false

theorem Watched.Off.refl (watched : Watched σ) : watched.Off watched := ⟨[], rfl, by simp⟩

theorem Watched.Off.trans {watched mid after : Watched σ} (first : watched.Off mid)
    (second : mid.Off after) : watched.Off after := by
  obtain ⟨early, same, off⟩ := first
  obtain ⟨late, same', off'⟩ := second
  refine ⟨late ++ early, by rw [same', same, List.append_assoc], fun flag written => ?_⟩
  exact (List.mem_append.mp written).elim (off' flag) (off flag)

variable [Machine σ]

/-- What a machine has done with its flag off is written down so. -/
theorem Watched.Off.of_written {watched after : Watched σ} {result : Except Violation σ}
    (off : Machine.interrupts watched = false)
    (written : result.map (fun machine =>
      ⟨machine, Machine.interrupts watched.machine :: watched.flags⟩) = .ok after) :
    watched.Off after := by
  have off : Machine.interrupts watched.machine = false := off
  cases result with
  | ok machine =>
    cases written
    exact ⟨[_], rfl, by simpa using off⟩
  | error violation => cases written

theorem Kernel.machineReady_off {thread : ThreadId} {kernel : Kernel (Watched σ)}
    (off : Machine.interrupts kernel.machine = false) :
    kernel.machine.Off (leftBy (machineReady thread kernel)).machine := by
  unfold machineReady
  cases outcome : Machine.ready thread kernel.machine with
  | ok after => exact .of_written off outcome
  | error violation => exact .refl _

theorem Kernel.machineSleep_off {kernel : Kernel (Watched σ)}
    (off : Machine.interrupts kernel.machine = false) :
    kernel.machine.Off (leftBy (machineSleep kernel)).machine := by
  unfold machineSleep
  cases outcome : Machine.sleep kernel.machine with
  | ok after => exact .of_written off outcome
  | error violation => exact .refl _

/-- What is done after the check for masked interrupts is done with them masked, or not at all. -/
theorem Kernel.requireMasked_off {α : Type} {operation : String} {next : KernelM (Watched σ) α}
    {kernel : Kernel (Watched σ)} (goes : Machine.interrupts kernel.machine = false →
      kernel.machine.Off (leftBy (next kernel)).machine) :
    kernel.machine.Off (leftBy ((requireMasked operation >>= fun _ => next) kernel)).machine := by
  show Watched.Off _ (leftBy (EStateM.bind (requireMasked operation) _ kernel)).machine
  unfold EStateM.bind requireMasked
  cases off : Machine.interrupts kernel.machine with
  | true => exact .refl _
  | false => exact goes off

omit [Machine σ] in
theorem Kernel.bind_off {α β : Type} {computation : KernelM (Watched σ) α}
    {next : α → KernelM (Watched σ) β} {kernel : Kernel (Watched σ)}
    (first : kernel.machine.Off (leftBy (computation kernel)).machine)
    (rest : ∀ a (mid : Kernel (Watched σ)), mid.machine.Off (leftBy (next a mid)).machine) :
    kernel.machine.Off (leftBy ((computation >>= next) kernel)).machine := by
  show Watched.Off _ (leftBy (EStateM.bind computation next kernel)).machine
  unfold EStateM.bind
  cases outcome : computation kernel with
  | ok a mid =>
    rw [outcome] at first
    exact first.trans (rest a mid)
  | error violation mid =>
    rw [outcome] at first
    exact first

/-- A tame computation wakes others with its flag off. -/
theorem Tame.watched {masked : Bool} {α : Type} {computation : KernelM (Watched σ) α}
    (tame : Tame masked computation) (kernel : Kernel (Watched σ)) :
    kernel.machine.Off (leftBy (computation kernel)).machine := by
  induction tame generalizing kernel with
  | own own => exact own.machine kernel ▸ .refl _
  | guarded guarded => exact guarded.machine kernel ▸ .refl _
  | wake thread => exact requireMasked_off machineReady_off
  | creates lock => exact .refl _
  | bind first rest ih ihs => exact bind_off (ih kernel) ihs
  | @bracket masked α body tame ih =>
    have off := ih kernel.masked
    unfold Kernel.bracket
    dsimp only
    cases outcome : body kernel.masked <;> rw [outcome] at off <;> exact off

/-- A disciplined call sleeps and wakes others with its flag off. -/
theorem Disciplined.watched {masked : Bool} {call : KernelM (Watched σ) Progress}
    (disciplined : Disciplined masked call) (kernel : Kernel (Watched σ)) :
    kernel.machine.Off (leftBy (call kernel)).machine := by
  induction disciplined generalizing kernel with
  | done reply => exact .refl _
  | throws other => exact .refl _
  | bind first rest ih => exact bind_off (first.watched kernel) ih
  | sleeps owed plain =>
    exact bind_off (requireMasked_off machineSleep_off) fun _ _ => .refl _
  | @yields masked kept owed plain disciplined ih =>
    show Watched.Off _ (leftBy ((if (Machine.yield kernel.machine).1 then kept
      else pure (.switched owed))
        { kernel with machine := (Machine.yield kernel.machine).2 })).machine
    split
    · exact ih { kernel with machine := (Machine.yield kernel.machine).2 }
    · exact ⟨[], rfl, by simp⟩
  | finishes => exact requireMasked_off fun _ => .refl _
  | owing owed plain disciplined ih => exact bind_off (ih kernel) fun _ _ => .refl _
  | @bracketCall masked body disciplined ih =>
    have off := ih kernel.masked
    unfold Kernel.bracketCall
    dsimp only
    cases outcome : body kernel.masked with
    | ok progress last =>
      rw [outcome] at off
      cases progress <;> exact off
    | error violation last =>
      rw [outcome] at off
      exact off

theorem Kernel.unwind_off (owed : List Task) (kernel : Kernel (Watched σ)) :
    kernel.machine.Off (unwind owed kernel).machine := by
  induction owed generalizing kernel with
  | nil => exact .refl _
  | cons task rest ih => cases task <;> exact ih _

/-- A call that goes on sleeps and wakes others with its flag off. -/
theorem Kernel.resume_watched
    (runs : ∀ task : Task, task.plain = true → Disciplined false (task.run (σ := Watched σ)))
    (reply : Reply) (owed : List Task) (kernel : Kernel (Watched σ)) :
    kernel.machine.Off (leftBy (resume reply owed kernel)).machine := by
  induction owed generalizing reply kernel with
  | nil => exact .refl _
  | cons task rest ih =>
    have first : kernel.machine.Off (leftBy (task.run kernel)).machine := by
      cases task with
      | leave saved => exact ⟨[], rfl, by simp⟩
      | confirm | acquire | recheck | wakeDue => exact (runs _ rfl).watched kernel
    unfold resume
    cases outcome : task.run kernel with
    | ok progress last =>
      rw [outcome] at first
      cases progress with
      | done reply => exact first.trans (ih reply last)
      | switched owed => exact first
      | finished => exact first.trans (unwind_off rest last)
    | error violation last =>
      rw [outcome] at first
      exact first.trans (unwind_off rest last)

end

end Turnstile
