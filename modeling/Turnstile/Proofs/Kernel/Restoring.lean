import Turnstile.Proofs.Kernel.Brackets

/-!
# Calls leave flags as they found them

A call may come to a halt several times on its way, and others run meanwhile. `Concludes` follows it
to its end, and `calls_restore_flags` says what is true of it there, on any lawful machine and in
whatever state the kernel is: its caller's flag is as before, and on the way nothing that is shared
was touched, nobody was put to sleep and nobody woken but with that flag off.
-/

namespace Turnstile

open Kernel

/-! ## What is offered to threads -/

/-- Whether a request is made to the machine itself, or concerns a variable. -/
def Request.bare : Request → Bool
  | interrupts | disable | restore _ | maskings | yield | sleep | ready _ | now | add .. => true
  | _ => false

/-- The operation that a request performs, if its caller has to have masked interrupts for it. -/
def Request.atomic? : Request → Option String
  | wait .. => some "wait_for_access"
  | acquire .. => some "acquire"
  | weight _ => some "get_priority"
  | effective _ => some "get_effective_priority"
  | setWeight .. => some "set_priority"
  | trySetWeight .. => some "try_set_priority"
  | _ => none

/-- What threads are offered: the requests, and waiting while any predicate holds. -/
inductive Service
  | request (request : Request)
  | waitWhile (condition : Nat) (predicate : Memory → Bool) (passes : Nat)

namespace Service

def bare : Service → Bool
  | request made => made.bare
  | waitWhile .. => false

def atomic? : Service → Option String
  | request made => made.atomic?
  | waitWhile .. => none

def perform {σ : Type} [Machine σ] : Service → KernelM σ Progress
  | request made => made.perform
  | waitWhile condition predicate passes => Condition.waitWhile condition predicate passes

end Service

section

variable {σ α : Type} [Machine σ] {masked : Bool}

theorem answering_disciplined {body : KernelM σ Reply} (tame : Tame masked body) :
    Disciplined masked (Request.answering body) :=
  .bind tame fun _ => .done _

theorem silently_disciplined {body : KernelM σ Unit} (tame : Tame masked body) :
    Disciplined masked (Request.silently body) :=
  .bind tame fun _ => .done _

theorem Tame.map {computation : KernelM σ α} (tame : Tame masked computation) (f : α → Reply) :
    Tame masked (do return f (← computation)) :=
  .bind tame fun _ => .own (.pure _)

/-- A request whose thread is named looks first who is meant. -/
theorem Tame.named {next : ThreadId → KernelM σ α} (name : ThreadName)
    (tame : ∀ thread, Tame masked (next thread)) :
    Tame masked (Request.resolve name >>= next) :=
  .bind (resolve_tame name) tame

/-- Every request but those to the machine itself is disciplined. Those that have to be atomic are
if their callers have masked interrupts. -/
theorem Request.perform_disciplined {request : Request} (offered : request.bare = false) :
    Disciplined (σ := σ) request.atomic?.isSome request.perform := by
  cases request with
  | newQueue donation => exact answering_disciplined ((newQueue_tame donation).map _)
  | closeQueue id => exact silently_disciplined (closeQueue_tame id)
  | wait id name => exact silently_disciplined (.named name fun _ => waitForAccess_tame id _)
  | acquire id name => exact silently_disciplined (.named name fun _ => acquire_tame id _)
  | next id => exact answering_disciplined ((nextThread_tame id).map _)
  | isEmpty id | owner id | waiters id =>
    exact answering_disciplined ((lookAtQueue_tame id _).map _)
  | queueCount | threadCount => exact answering_disciplined ((look_tame _).map _)
  | knows name => exact answering_disciplined (.named name fun _ => (look_tame _).map _)
  | weight name =>
    exact answering_disciplined (.named name fun _ => Tame.map (.guarded (baseOf_guarded _ _)) _)
  | effective name =>
    exact answering_disciplined (.named name fun _ => (getEffectivePriority_tame _).map _)
  | setWeight name requested =>
    exact silently_disciplined (.named name fun _ => .guarded (setBase_guarded _ _ requested))
  | trySetWeight name requested =>
    refine answering_disciplined
      (.named name fun thread => .bind (trySetPriority_tame thread requested) ?_)
    intro answer
    cases answer <;> exact .own (.pure _)
  | increase | decrease => exact answering_disciplined ((stepPriority_tame _ _ _).map _)
  | exitThread name => exact silently_disciplined (.named name fun _ => exitThread_tame _)
  | finish => exact finish_disciplined
  | current => exact answering_disciplined (currentThread_tame.map _)
  | policy =>
    exact answering_disciplined (.read (f := fun kernel => kernel.config.policy)
      (g := fun policy => pure (Reply.policy policy)) (fun _ _ => rfl) fun _ => .own (.pure _))
  | config =>
    exact answering_disciplined (.read (f := fun kernel => kernel.config)
      (g := fun config => pure (Reply.config config)) (fun _ _ => rfl) fun _ => .own (.pure _))
  | lock => exact answering_disciplined (.bind lockCreate_tame fun _ => .own (.pure _))
  | lockAcquire index =>
    exact .bind (lockLookup_tame index) fun lock => lockAcquire_disciplined lock
  | lockRelease index =>
    exact silently_disciplined (.bind (lockLookup_tame index) fun lock => lockRelease_tame lock)
  | lockHeld index =>
    exact answering_disciplined (.bind (lockLookup_tame index) fun lock => (isHeld_tame lock).map _)
  | lockHolder index =>
    exact answering_disciplined
      (.bind (lockLookup_tame index) fun lock => (lookAtQueue_tame lock.queue _).map _)
  | condition index =>
    exact answering_disciplined (.bind (lockLookup_tame index) fun lock =>
      .bind (.creates lock) fun _ => .own (.pure _))
  | conditionWait index => exact conditionWait_disciplined index
  | conditionWhile index predicate => exact waitWhile_disciplined (σ := σ) index predicate 0
  | conditionSignal index => exact silently_disciplined (signal_tame index)
  | conditionBroadcast index => exact silently_disciplined (broadcast_tame index)
  | conditionWaiters index =>
    exact answering_disciplined (Tame.map (.bracket (Tame.bind (.guarded (waitingAt_guarded index))
      fun _ => .own (.pure _))) _)
  | joinPoint name =>
    exact silently_disciplined (.named name fun target =>
      .bind (joinCreate_tame target) fun _ => .own (.pure ()))
  | join index => exact join_disciplined index
  | joinExit index => exact joinExit_disciplined index
  | joinDone index | joinTarget index =>
    exact answering_disciplined (.bind (joinLookup_tame index) fun _ => .own (.pure _))
  | alarmWait ticks => exact waitUntil_disciplined ticks
  | alarmTick tick => exact onTick_disciplined tick
  | alarmPending | alarmDeadline =>
    exact answering_disciplined (Tame.map (.bracket (Tame.bind (.guarded sleepers_guarded)
      fun _ => .own (.pure _))) _)
  | _ => cases offered

theorem Service.perform_disciplined {service : Service} (offered : service.bare = false) :
    Disciplined (σ := σ) service.atomic?.isSome service.perform := by
  cases service with
  | request made => exact made.perform_disciplined offered
  | waitWhile condition predicate passes => exact waitWhile_disciplined condition predicate passes

/-- A computation that asks for masked interrupts first. -/
def Asks (operation : String) (computation : KernelM σ α) : Prop :=
  ∀ kernel, Machine.interrupts kernel.machine = true →
    computation kernel = .error (.interruptsEnabled operation) kernel

theorem asks_requireMasked {operation : String} (next : Unit → KernelM σ α) :
    Asks operation (requireMasked operation >>= next) := by
  intro kernel on
  show EStateM.bind (requireMasked operation) next kernel = _
  simp [EStateM.bind, requireMasked, on]

theorem Asks.bind {β : Type} {operation : String} {computation : KernelM σ α}
    (asks : Asks operation computation) (next : α → KernelM σ β) :
    Asks operation (computation >>= next) := by
  intro kernel on
  show EStateM.bind computation next kernel = _
  simp [EStateM.bind, asks kernel on]

theorem Asks.named {operation : String} {next : ThreadId → KernelM σ α} (name : ThreadName)
    (asks : ∀ thread, Asks operation (next thread)) :
    Asks operation (Request.resolve name >>= next) := by
  intro kernel on
  cases name with
  | id thread => exact asks thread kernel on
  | me => exact asks (Machine.current kernel.machine) kernel on

/-- Whoever does not mask interrupts for what has to be atomic is told so, and nothing happens. -/
theorem Request.perform_asks {request : Request} {operation : String}
    (atomic : request.atomic? = some operation) : Asks (σ := σ) operation request.perform := by
  cases request with
  | wait id name | acquire id name | setWeight name requested =>
    cases atomic
    exact .bind (.named name fun _ => asks_requireMasked _) _
  | weight name | effective name | trySetWeight name requested =>
    cases atomic
    exact .bind (.named name fun _ => .bind (asks_requireMasked _) _) _
  | _ => cases atomic

theorem Service.perform_asks {service : Service} {operation : String}
    (atomic : service.atomic? = some operation) : Asks (σ := σ) operation service.perform := by
  cases service with
  | request made => exact Request.perform_asks atomic
  | waitWhile condition predicate passes => cases atomic

end

/-! ## From a call to its end -/

section

variable {σ : Type} [LawfulMachine σ]

open LawfulMachine Machine

/-- A call of `me` that has come so far concludes. Where it has switched away others run, and when
`me` has the processor again, with its own flag as it was, the call goes on. -/
inductive Concludes (me : ThreadId) :
    EStateM.Result Violation (Kernel σ) Progress →
      EStateM.Result Violation (Kernel σ) Progress → Prop
  | ended {result : EStateM.Result Violation (Kernel σ) Progress}
    (stays : ∀ owed kernel, result ≠ .ok (.switched owed) kernel) : Concludes me result result
  | goesOn {owed : List Task} {away back : Kernel σ}
    {last : EStateM.Result Violation (Kernel σ) Progress} (proper : Proper back.machine)
    (caller : current back.machine = me) (mine : flag me back.machine = flag me away.machine)
    (rest : Concludes me (resume .nothing owed back) last) :
    Concludes me (.ok (.switched owed) away) last

/-- What is known of a call's flag when it comes to a halt is known when it concludes. -/
theorem Settles.concludes {enabled : Bool} {machine : σ}
    {result last : EStateM.Result Violation (Kernel σ) Progress}
    (settles : Settles enabled machine result)
    (concludes : Concludes (current machine) result last) :
    flag (current machine) (leftBy last).machine = enabled ∧
      ∀ violation kernel, last = .error violation kernel → violation.exposed = false := by
  generalize me : current machine = thread at concludes ⊢
  induction concludes generalizing machine with
  | @ended result stays =>
    subst me
    cases result with
    | ok progress kernel =>
      refine ⟨?_, fun _ _ same => by cases same⟩
      cases progress with
      | switched owed => exact absurd rfl (stays owed kernel)
      | done reply => exact settles.mine rfl
      | finished => exact settles.mine rfl
    | error violation kernel =>
      refine ⟨settles.1.mine rfl, fun _ _ same => ?_⟩
      cases same
      exact settles.2
  | @goesOn owed away back last proper caller mine rest ih =>
    subst me
    have own : Task.restored (flag (current machine) away.machine) owed = enabled := settles.own
    have goes := resume_settles (fun task => task.run_disciplined) owed .nothing proper
    rw [caller, mine, own] at goes
    exact ih goes caller

end

/-- What is said of flags where a call comes to a halt is said of those of others. -/
theorem Settles.others {σ : Type} [LawfulMachine σ] {enabled : Bool} {machine : σ}
    {result : EStateM.Result Violation (Kernel σ) Progress}
    (settles : Settles enabled machine result)
    (thread : ThreadId) (other : thread ≠ Machine.current machine) :
    LawfulMachine.flag thread (leftBy result).machine = LawfulMachine.flag thread machine := by
  cases result with
  | ok progress kernel => exact Balanced.others settles thread other
  | error violation kernel => exact settles.1.others thread other

/-- Of every service that threads are offered, on a lawful machine and in any state of the kernel:

* when it concludes, be it with an answer, with a violation or with the end of its caller, its
  caller's flag is as it was when it was called;
* wherever it comes to a halt on its way, it has touched nobody else's flag;
* unless it has to be atomic and its caller has not masked interrupts, it is not told to mask them;
* if it has to be atomic and its caller has not masked interrupts, it says so and nothing happens;
* it is disciplined, and so is every task that it may come to owe except to put a flag back;
* on a watched machine it sleeps and wakes others with its flag off, from its call to its end. -/
theorem calls_restore_flags {σ : Type} [LawfulMachine σ] (service : Service)
    (offered : service.bare = false) (kernel : Kernel σ)
    (proper : LawfulMachine.Proper kernel.machine) :
    let me := Machine.current kernel.machine
    (∀ last, Concludes me (service.perform kernel) last →
      LawfulMachine.flag me (leftBy last).machine = LawfulMachine.flag me kernel.machine) ∧
    ((∀ thread, thread ≠ me → LawfulMachine.flag thread (leftBy (service.perform kernel)).machine =
        LawfulMachine.flag thread kernel.machine) ∧
      ∀ (reply : Reply) (owed : List Task) (back : Kernel σ), LawfulMachine.Proper back.machine →
        ∀ thread, thread ≠ Machine.current back.machine →
          LawfulMachine.flag thread (leftBy (resume reply owed back)).machine =
            LawfulMachine.flag thread back.machine) ∧
    (service.atomic? = none ∨ Machine.interrupts kernel.machine = false →
      ∀ violation after, Concludes me (service.perform kernel) (.error violation after) →
        violation.exposed = false) ∧
    (∀ operation, service.atomic? = some operation → Machine.interrupts kernel.machine = true →
      service.perform kernel = .error (.interruptsEnabled operation) kernel) ∧
    (Disciplined (σ := σ) service.atomic?.isSome service.perform ∧
      ∀ task : Task, task.plain = true → Disciplined (σ := σ) false task.run) ∧
    (∀ watched : Kernel (Watched σ),
      watched.machine.Off (leftBy (service.perform watched)).machine) ∧
    ∀ (reply : Reply) (owed : List Task) (watched : Kernel (Watched σ)),
      watched.machine.Off (leftBy (resume reply owed watched)).machine := by
  intro me
  have disciplined : Disciplined (σ := σ) service.atomic?.isSome service.perform :=
    service.perform_disciplined offered
  -- With interrupts on, a service that has to be atomic does nothing at all.
  have settles :
    (∃ operation, service.perform kernel = .error (.interruptsEnabled operation) kernel ∧
      service.atomic? = some operation ∧ Machine.interrupts kernel.machine = true) ∨
      Settles (LawfulMachine.flag me kernel.machine) kernel.machine (service.perform kernel) := by
    cases atomic : service.atomic? with
    | none => exact .inr (disciplined.settles proper fun known => by simp [atomic] at known)
    | some operation =>
      cases enabled : Machine.interrupts kernel.machine with
      | false => exact .inr (disciplined.settles proper fun _ => enabled)
      | true => exact .inl ⟨operation, Service.perform_asks atomic kernel enabled, rfl, rfl⟩
  refine ⟨fun last concludes => ?_, ⟨fun thread other => ?_, ?_⟩,
    fun may violation after concludes => ?_,
    fun operation atomic => Service.perform_asks atomic kernel,
    ⟨disciplined, fun task => task.run_disciplined⟩, (service.perform_disciplined offered).watched,
    fun reply owed => resume_watched (fun task => task.run_disciplined) reply owed⟩
  · rcases settles with ⟨operation, refused, -⟩ | settles
    · rw [refused] at concludes
      cases concludes
      rfl
    · exact (settles.concludes concludes).1
  · rcases settles with ⟨operation, refused, -⟩ | settles
    · rw [refused]
      rfl
    · exact settles.others thread other
  · intro reply owed back proper thread other
    exact (resume_settles (fun task => task.run_disciplined) owed reply proper).others thread other
  · rcases settles with ⟨operation, -, atomic, on⟩ | settles
    · rcases may with free | off
      · cases free.symm.trans atomic
      · cases off.symm.trans on
    · exact (settles.concludes concludes).2 violation after rfl

/-- A machine on which thread 1 has the processor. -/
def single : Uniprocessor := (Uniprocessor.fresh.spawn.2.dispatch?).getD .fresh

theorem single_sane : single.stage.Sane := by
  obtain ⟨thread, rest, first, stage⟩ := Uniprocessor.dispatch?_eq_some
    (show Uniprocessor.fresh.spawn.2.dispatch? = some single from rfl)
  have spawned := (Uniprocessor.stage_spawn .fresh).2
  rw [spawned] at first stage
  exact stage ▸ Uniprocessor.sane_fresh.spawn.dispatch rfl first

/-- Thread 1, with interrupts on, sleeps by the alarm. At tick 1 the idle context wakes it, with a
bracket of its own, and dispatches it; then its flag is still off, and on again when its call is
over. A call that has to be atomic it does not get through. -/
theorem calls_restore_flags_asleep :
    let kernel := Kernel.fresh single .default
    let called := (Service.request (.alarmWait 1)).perform kernel
    let ticked := leftBy (Alarm.onTick 1 (leftBy called))
    let back := { ticked with machine := (ticked.machine.dispatch?).getD ticked.machine }
    let last := resume .nothing [.leave true] back
    (Concludes ⟨1⟩ called last ∧ Uniprocessor.flag ⟨1⟩ back.machine = false ∧
      Uniprocessor.flag ⟨1⟩ (leftBy last).machine = Uniprocessor.flag ⟨1⟩ kernel.machine) ∧
    (Service.request (.weight .me)).perform kernel =
      .error (.interruptsEnabled "get_priority") kernel := by
  intro kernel called ticked back last
  have masked : back.machine = single.setInterrupts false := by decide +kernel
  have proper : LawfulMachine.Proper back.machine :=
    masked.symm ▸ LawfulMachine.setInterrupts_proper single_sane false
  have concludes : Concludes ⟨1⟩ called last :=
    .goesOn proper (by decide +kernel) (by decide +kernel)
      (.ended (fun owed kernel same => by cases same))
  obtain ⟨flag, -⟩ := calls_restore_flags (.request (.alarmWait 1)) rfl kernel single_sane
  obtain ⟨-, -, -, refuses, -⟩ :=
    calls_restore_flags (.request (.weight .me)) rfl kernel single_sane
  exact ⟨⟨concludes, by decide +kernel, flag last concludes⟩, refuses _ rfl (by decide +kernel)⟩

end Turnstile
