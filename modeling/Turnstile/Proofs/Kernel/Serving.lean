import Turnstile.Proofs.Kernel.Restoring
import Turnstile.Proofs.Machine.Events

/-!
# What calls do to the machine

Whatever a call does, what becomes of the machine is a row of events (`Uniprocessor.Leads`): calls
mask interrupts and put flags back, sleep, yield and wake threads, and have no other way to change
it. A call that has not switched away leaves the processor with whoever has it
(`Uniprocessor.Retains`); only a thread's call switches away, and with one that has, the machine may
be anyone's (`Uniprocessor.Departs`). No call moves the clock.

This holds of every request (`Request.serves`), of going on with a call
(`Kernel.resume_serves`) and of the clock's interrupt (`onTick_serves`), with interrupts
masked or not, and when they fail as well.
-/

namespace Turnstile

open Kernel Uniprocessor

/-- Some events lead from the one machine to the other, and the processor is with the same
context. -/
structure Uniprocessor.Retains (machine after : Uniprocessor) : Prop where
  leads : machine.Leads after
  running : after.running = machine.running
  clock : after.clock = machine.clock

/-- Some events lead from the one machine to the other, and the thread that ran may have given up
the processor. -/
structure Uniprocessor.Departs (machine after : Uniprocessor) : Prop where
  leads : machine.Leads after
  ran : machine.running ≠ none
  clock : after.clock = machine.clock

namespace Uniprocessor.Retains

variable {machine mid after : Uniprocessor}

theorem refl (machine : Uniprocessor) : machine.Retains machine := ⟨.refl machine, rfl, rfl⟩

theorem trans (h : machine.Retains mid) (ho : mid.Retains after) : machine.Retains after :=
  ⟨h.leads.trans ho.leads, ho.running.trans h.running, ho.clock.trans h.clock⟩

theorem departs (h : machine.Retains mid) (ho : mid.Departs after) : machine.Departs after :=
  ⟨h.leads.trans ho.leads, h.running ▸ ho.ran, ho.clock.trans h.clock⟩

theorem setInterrupts (machine : Uniprocessor) (enabled : Bool) :
    machine.Retains (machine.setInterrupts enabled) where
  leads := .single (.setInterrupts enabled) rfl
  running := congrArg (·.running) (stage_setInterrupts machine enabled)
  clock := congrArg (·.clock) (stage_setInterrupts machine enabled)

theorem wake {thread : ThreadId} (h : machine.wake thread = .ok after) :
    machine.Retains after where
  leads := .single (.ready thread) (congrArg Except.toOption h)
  running := by
    obtain ⟨-, rfl⟩ := status_of_wake h
    rfl
  clock := by
    obtain ⟨-, rfl⟩ := status_of_wake h
    rfl

end Uniprocessor.Retains

/-- What is said of the machine where a call comes to a halt. -/
def Serves (machine : Uniprocessor) :
    EStateM.Result Violation (Kernel Uniprocessor) Progress → Prop
  | .ok (.switched _) after => machine.Departs after.machine
  | .ok _ after => machine.Retains after.machine
  | .error _ after => machine.Retains after.machine

variable {machine mid : Uniprocessor} {kernel : Kernel Uniprocessor}

/-- What comes after a beginning that keeps the processor counts from there. -/
theorem Uniprocessor.Retains.serves (retains : machine.Retains mid)
    {result : EStateM.Result Violation (Kernel Uniprocessor) Progress}
    (serves : Serves mid result) :
    Serves machine result := by
  cases result with
  | ok progress after =>
    cases progress with
    | switched owed => exact retains.departs serves
    | done reply => exact retains.trans serves
    | finished => exact retains.trans serves
  | error violation after => exact retains.trans serves

theorem Serves.leads {result : EStateM.Result Violation (Kernel Uniprocessor) Progress}
    (serves : Serves machine result) : machine.Leads (leftBy result).machine := by
  cases result with
  | ok progress after =>
    cases progress with
    | switched owed => exact Departs.leads serves
    | done reply => exact Retains.leads serves
    | finished => exact Retains.leads serves
  | error violation after => exact Retains.leads serves

/-! ## Computations that keep the processor -/

theorem machineReady_retains (thread : ThreadId) (kernel : Kernel Uniprocessor) :
    kernel.machine.Retains (leftBy (machineReady thread kernel)).machine := by
  unfold machineReady
  cases woken : Machine.ready thread kernel.machine with
  | ok after => exact .wake woken
  | error violation => exact .refl _

/-- What comes after a check changes the machine only if the check is passed. -/
theorem requireMasked_retains {α : Type} {operation : String} {next : KernelM Uniprocessor α}
    (goes : kernel.machine.Retains (leftBy (next kernel)).machine) :
    kernel.machine.Retains
      (leftBy ((requireMasked operation >>= fun _ => next) kernel)).machine := by
  show Uniprocessor.Retains _ (leftBy (EStateM.bind (requireMasked operation) _ kernel)).machine
  unfold EStateM.bind requireMasked
  cases Machine.interrupts kernel.machine with
  | true => exact .refl _
  | false => exact goes

/-- A computation that keeps the processor does nothing to the machine but mask interrupts, put
flags back and wake threads. -/
theorem Tame.serves {masked : Bool} {α : Type} {computation : KernelM Uniprocessor α}
    (tame : Tame masked computation) (kernel : Kernel Uniprocessor) :
    kernel.machine.Retains (leftBy (computation kernel)).machine := by
  induction tame generalizing kernel with
  | own own => exact own.machine kernel ▸ .refl _
  | guarded guarded => exact guarded.machine kernel ▸ .refl _
  | wake thread => exact requireMasked_retains (machineReady_retains thread kernel)
  | creates lock => exact .refl _
  | @bind masked α β computation next first rest ih ihs =>
    have begun := ih kernel
    show Uniprocessor.Retains _ (leftBy (EStateM.bind computation next kernel)).machine
    unfold EStateM.bind
    cases outcome : computation kernel with
    | ok a mid =>
      rw [outcome] at begun
      exact begun.trans (ihs a mid)
    | error violation mid =>
      rw [outcome] at begun
      exact begun
  | @bracket masked α body tame ih =>
    have inside := (Retains.setInterrupts kernel.machine false).trans (ih kernel.masked)
    unfold Kernel.bracket
    dsimp only
    cases outcome : body kernel.masked <;> rw [outcome] at inside <;>
      exact inside.trans (.setInterrupts _ _)

/-! ## Calls -/

theorem bind_serves {α : Type} {computation : KernelM Uniprocessor α}
    {next : α → KernelM Uniprocessor Progress}
    (first : kernel.machine.Retains (leftBy (computation kernel)).machine)
    (rest : ∀ a (mid : Kernel Uniprocessor), Serves mid.machine (next a mid)) :
    Serves kernel.machine ((computation >>= next) kernel) := by
  show Serves _ (EStateM.bind computation next kernel)
  unfold EStateM.bind
  cases outcome : computation kernel with
  | ok a mid =>
    rw [outcome] at first
    exact first.serves (rest a mid)
  | error violation mid =>
    rw [outcome] at first
    exact first

/-- Falling asleep is an event, after which the call has switched away. -/
theorem machineSleep_serves (owed : List Task) (kernel : Kernel Uniprocessor) :
    Serves kernel.machine ((machineSleep >>= fun _ => pure (.switched owed)) kernel) := by
  show Serves _ (EStateM.bind machineSleep _ kernel)
  unfold EStateM.bind machineSleep
  cases slept : Machine.sleep kernel.machine with
  | ok after =>
    have leads : kernel.machine.Leads after := .single .sleep (congrArg Except.toOption slept)
    rcases kernel.machine.sleep_cases with same | same | ⟨thread, next, runs, same, stage⟩
    · cases same.symm.trans slept
    · cases same.symm.trans slept
    · cases same.symm.trans slept
      exact ⟨leads, by simp [runs], congrArg (·.clock) stage⟩
  | error violation => exact Retains.refl _

/-- Only the idle context keeps the processor when it offers it to others. -/
theorem machineYield_serves {kept : KernelM Uniprocessor Progress} (owed : List Task)
    (kernel : Kernel Uniprocessor) (keeps : Serves kernel.machine (kept kernel)) :
    Serves kernel.machine
      ((machineYield >>= fun keeps => if keeps then kept else pure (.switched owed)) kernel) := by
  show Serves _ ((if kernel.machine.yield.1 then kept else pure (.switched owed))
    { kernel with machine := kernel.machine.yield.2 })
  rcases kernel.machine.yield_cases with ⟨-, same⟩ | ⟨thread, after, runs, same, stage⟩
  · rw [same]
    exact keeps
  · have yielded : Event.yield.perform kernel.machine = some after := by
      rw [Event.perform, same]
    rw [same]
    exact ⟨.single .yield yielded, by simp [runs], congrArg (·.clock) stage⟩

/-- A disciplined call does nothing to the machine but what events do. -/
theorem Disciplined.serves {masked : Bool} {call : KernelM Uniprocessor Progress}
    (disciplined : Disciplined masked call) (kernel : Kernel Uniprocessor) :
    Serves kernel.machine (call kernel) := by
  induction disciplined generalizing kernel with
  | done reply => exact Retains.refl _
  | throws other => exact Retains.refl _
  | bind first rest ih => exact bind_serves (first.serves kernel) ih
  | sleeps owed plain =>
    have slept := machineSleep_serves owed kernel
    show Serves _ (EStateM.bind (EStateM.bind (requireMasked "sleep") _) _ kernel)
    simp only [EStateM.bind, requireMasked]
    cases Machine.interrupts kernel.machine with
    | true => exact Retains.refl _
    | false => exact slept
  | yields owed plain disciplined ih => exact machineYield_serves owed kernel (ih kernel)
  | finishes =>
    show Serves _ (EStateM.bind (requireMasked "finish") _ kernel)
    simp only [EStateM.bind, requireMasked]
    cases Machine.interrupts kernel.machine <;> exact Retains.refl _
  | @owing masked call owed plain disciplined ih =>
    have served := ih kernel
    show Serves _ (EStateM.bind call _ kernel)
    unfold EStateM.bind
    cases outcome : call kernel with
    | ok progress after =>
      rw [outcome] at served
      cases progress <;> exact served
    | error violation after =>
      rw [outcome] at served
      exact served
  | @bracketCall masked body disciplined ih =>
    have inside := (Retains.setInterrupts kernel.machine false).serves (ih kernel.masked)
    unfold Kernel.bracketCall
    dsimp only
    cases outcome : body kernel.masked with
    | ok progress last =>
      rw [outcome] at inside
      cases progress with
      | switched owed => exact inside
      | done reply => exact Retains.trans inside (.setInterrupts _ _)
      | finished => exact Retains.trans inside (.setInterrupts _ _)
    | error violation last =>
      rw [outcome] at inside
      exact Retains.trans inside (.setInterrupts _ _)

theorem Kernel.unwind_retains (owed : List Task) (kernel : Kernel Uniprocessor) :
    kernel.machine.Retains (unwind owed kernel).machine := by
  induction owed generalizing kernel with
  | nil => exact .refl _
  | cons task rest ih =>
    cases task with
    | leave saved =>
      exact (Retains.setInterrupts kernel.machine saved).trans (ih (kernel.withInterrupts saved))
    | confirm | acquire | recheck | wakeDue => exact ih _

/-- Going on with a call does nothing to the machine but what events do. -/
theorem Kernel.resume_serves (reply : Reply) (owed : List Task) (kernel : Kernel Uniprocessor) :
    Serves kernel.machine (resume reply owed kernel) := by
  induction owed generalizing reply kernel with
  | nil => exact Retains.refl _
  | cons task rest ih =>
    have first : Serves kernel.machine (task.run kernel) := by
      cases task with
      | leave saved => exact Retains.setInterrupts _ saved
      | confirm | acquire | recheck | wakeDue =>
        exact (Task.run_disciplined _ rfl : Disciplined false _).serves kernel
    unfold resume
    cases outcome : task.run kernel with
    | ok progress last =>
      rw [outcome] at first
      cases progress with
      | done reply => exact Retains.serves first (ih reply last)
      | switched owed => exact first
      | finished => exact Retains.trans first (unwind_retains rest last)
    | error violation last =>
      rw [outcome] at first
      exact Retains.trans first (unwind_retains rest last)

/-- A request does nothing to the machine but what events do. -/
theorem Request.serves (request : Request) (kernel : Kernel Uniprocessor) :
    Serves kernel.machine (request.perform kernel) := by
  cases offered : request.bare with
  | false => exact (request.perform_disciplined offered).serves kernel
  | true =>
    cases request with
    | interrupts | maskings | now | add => exact Retains.refl _
    | disable => exact Retains.setInterrupts _ false
    | restore enabled => exact Retains.setInterrupts _ enabled
    | yield => exact machineYield_serves [] kernel (Retains.refl _)
    | sleep => exact machineSleep_serves [] kernel
    | ready name =>
      refine bind_serves (?_ : kernel.machine.Retains _) fun _ _ => Retains.refl _
      cases name with
      | me => exact machineReady_retains _ kernel
      | id thread => exact machineReady_retains _ kernel
    | _ => cases offered

theorem onTick_serves (tick : Nat) (kernel : Kernel Uniprocessor) :
    Serves kernel.machine (Alarm.onTick tick kernel) :=
  (onTick_disciplined tick : Disciplined false _).serves kernel

end Turnstile
