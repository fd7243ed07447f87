import Turnstile.Proofs.Kernel.Serving
import Turnstile.Simulation.Step

/-!
# Dispatching until nobody is ready

Whatever contexts do, a step changes the machine as events do, and the driver says that dispatching
has ended only when no thread is ready and none runs.

* **Sessions** (`Simulation.Session`) are the systems that the steps of any scripts lead to. A
  driver that a violation has stopped may go on with another script.
* **Code** (`Simulation.Paired`): dispatching is the driver's, and what may be done only when no
  thread is ready comes directly after it. So the driver has either to dispatch first, or has just
  found that nobody is ready (`Simulation.Poised`).
* **A step** (`Poised.proceeds`) keeps this, whoever makes it.
* **`baton_and_ready_list`**: on a machine on which anything may happen in any order, the ready
  list, the processor and what is said of each thread agree, and threads run in the order in which
  they came to be ready. A machine under simulation is one of these.
-/

namespace Turnstile.Simulation

open Kernel Uniprocessor

/-! ## Sessions -/

/-- Some scripts have come so far. -/
inductive Session : Simulation → Prop
  | start (config : Config) (idleLimit : Nat) (script : List Operation) :
    Session (start config idleLimit script)
  | step {system after : Simulation} (session : Session system) (h : system.step = some after) :
    Session after
  /-- The driver has caught a violation, and goes on with another script. -/
  | again {system : Simulation} (session : Session system) (stopped : system.ended = true)
    (script : List Operation) :
    Session { system.setContext .idle (.ofScript script) with ended := false }

/-- The driver has written down that dispatching has ended, or ticking. -/
def Returned (system after : Simulation) : Prop :=
  ∃ name, (name = "run" ∨ name = runTimerName) ∧
    after.entries = .plain .idle name (.replied .nothing) :: system.entries

/-- An operation that is neither to dispatch nor to let the clock tick. -/
def Ordinary (name : String) : Prop := name ≠ "run" ∧ name ≠ runTimerName

instance (name : String) : Decidable (Ordinary name) :=
  inferInstanceAs (Decidable (_ ∧ _))

theorem ordinary_request (request : Request) : Ordinary request.name := by
  cases request <;> simp [Ordinary, Request.name, runTimerName]

theorem not_returned_of_same {system after : Simulation} (same : after.entries = system.entries) :
    ¬ Returned system after := by
  rintro ⟨name, -, wrote⟩
  exact List.cons_ne_self _ _ (wrote.symm.trans same)

theorem not_returned_of_wrote {system after : Simulation} {who : ThreadId} {name : String}
    {result : Result} (wrote : after.entries = .plain who name result :: system.entries)
    (other : Ordinary name ∨ result ≠ .replied .nothing) : ¬ Returned system after := by
  rintro ⟨name', ends, wrote'⟩
  have same := (List.cons_eq_cons.mp (wrote.symm.trans wrote')).1
  have named : name = name' := congrArg Entry.name same
  have replied : result = .replied .nothing := congrArg Entry.result same
  rcases other with ordinary | other
  · rcases ends with rfl | rfl
    · exact ordinary.1 named
    · exact ordinary.2 named
  · exact other replied

/-! ## Code -/

/-- Whether a piece may stand anywhere in a context's code. -/
def Code.free (driver : Bool) : Code → Bool
  | operation _ | leave _ => true
  | alarm _ | endTick .. => driver
  | dispatch _ | report _ | awaitTick .. => false

/-- Whether a piece is only for when no thread is ready. -/
def Code.concludes : Code → Bool
  | report _ | awaitTick .. => true
  | _ => false

/-- Dispatching is the driver's, and directly after it, and nowhere else, stands what is only for
when no thread is ready. -/
inductive Paired (driver : Bool) : List Code → Prop
  | nil : Paired driver []
  | free {piece : Code} {rest : List Code} (free : piece.free driver = true)
    (paired : Paired driver rest) : Paired driver (piece :: rest)
  | pair {name : String} {piece : Code} {rest : List Code} (drives : driver = true)
    (concludes : piece.concludes = true) (paired : Paired driver rest) :
    Paired driver (.dispatch name :: piece :: rest)

theorem Paired.append {driver : Bool} {rest : List Code} (paired : Paired driver rest)
    (script : List Operation) : Paired driver (Code.ofScript script ++ rest) := by
  induction script with
  | nil => exact paired
  | cons operation script ih => exact .free rfl ih

theorem Paired.script (driver : Bool) (script : List Operation) :
    Paired driver (Code.ofScript script) := by
  rw [← List.append_nil (Code.ofScript script)]
  exact Paired.nil.append script

/-! ## Poised systems -/

/-- The driver has just found that no thread is ready. -/
structure Drained (system : Simulation) (context : Context) : Prop where
  idle : context.call = none
  rests : system.machine.running = none
  nobody : system.machine.ready = []
  code : ∃ piece rest, context.code = piece :: rest ∧ piece.concludes = true ∧ Paired true rest

/-- A context has code that it may run, and a name for the call that it has switched away from. -/
structure Fits (system : Simulation) (who : ThreadId) (context : Context) : Prop where
  code : Paired (who = .idle) context.code ∨ who = .idle ∧ Drained system context
  names : ∀ name owed, context.call = some (name, owed) → Ordinary name

/-- The machine is one that events lead to, and every context fits. -/
structure Poised (system : Simulation) : Prop where
  leads : Uniprocessor.fresh.Leads system.machine
  fits : ∀ who context, system.contexts.get? who = some context → Fits system who context

/-- What is said of a step. -/
structure Proceeds (system after : Simulation) : Prop where
  leads : system.machine.Leads after.machine
  poised : after.Poised
  returned : Returned system after → after.machine.running = none ∧ after.machine.ready = []

variable {system after : Simulation} {context : Context}

theorem Fits.ofCode {who : ThreadId} {code : List Code} (paired : Paired (who = .idle) code) :
    Fits system who (.ofCode code) :=
  ⟨.inl paired, fun _ _ call => by cases call⟩

theorem running_of_current (thread : system.current ≠ .idle) :
    system.machine.running = some system.current := by
  unfold current Uniprocessor.current at *
  cases runs : system.machine.running with
  | none => exact absurd (by rw [runs]; rfl) thread
  | some other => rfl

namespace Poised

variable (poised : system.Poised)
include poised

theorem sane : system.machine.stage.Sane := by
  obtain ⟨events, runs⟩ := poised.leads
  exact sane_of_runs runs sane_fresh

theorem rests (driver : system.current = .idle) : system.machine.running = none :=
  poised.sane.current_eq_idle_iff.mp driver

/-- Only the context that has the processor can have found that nobody is ready, so the others fit
whatever it does. -/
theorem fits_of_ne {who : ThreadId} (other : who ≠ system.current)
    (there : system.contexts.get? who = some context) : Fits after who context := by
  obtain ⟨paired | ⟨rfl, drained⟩, names⟩ := poised.fits who context there
  · exact ⟨.inl paired, names⟩
  · refine absurd ?_ other
    rw [current, Uniprocessor.current, drained.rests]
    rfl

/-- Contexts that are there afterwards were there before, and have not had the processor, or fit. -/
theorem of_fits (leads : system.machine.Leads after.machine)
    (each : ∀ who context, after.contexts.get? who = some context →
      who ≠ system.current ∧ system.contexts.get? who = some context ∨ Fits after who context) :
    after.Poised where
  leads := poised.leads.trans leads
  fits who other there := by
    rcases each who other there with ⟨ne, there'⟩ | fits
    · exact poised.fits_of_ne ne there'
    · exact fits

/-- The context that has the processor is left with other code. -/
theorem set (leads : system.machine.Leads after.machine)
    (contexts : after.contexts = system.contexts.set system.current context)
    (fits : Fits after system.current context) : after.Poised := by
  refine poised.of_fits leads fun who other there => ?_
  rw [contexts, Directory.get?_set] at there
  split at there
  · rename_i same
    cases there
    exact .inr (same ▸ fits)
  · rename_i ne
    exact .inl ⟨Ne.symm ne, there⟩

/-- The context that has the processor is gone. -/
theorem erase (leads : system.machine.Leads after.machine)
    (contexts : after.contexts = system.contexts.erase system.current) : after.Poised := by
  refine poised.of_fits leads fun who other there => ?_
  rw [contexts, Directory.get?_erase] at there
  split at there
  · cases there
  · rename_i ne
    exact .inl ⟨Ne.symm ne, there⟩

/-- No context has other code, though one may be new. -/
theorem keep (leads : system.machine.Leads after.machine)
    (there : system.contexts.get? system.current = some context)
    (paired : Paired (system.current = .idle) context.code)
    (contexts : ∀ who other, after.contexts.get? who = some other →
      system.contexts.get? who = some other ∨ Fits after who other) : after.Poised := by
  refine poised.of_fits leads fun who other there' => ?_
  rcases contexts who other there' with there' | fits
  · by_cases same : who = system.current
    · subst same
      cases there.symm.trans there'
      exact .inr ⟨.inl paired, (poised.fits _ _ there).names⟩
    · exact .inl ⟨same, there'⟩
  · exact .inr fits

/-! ## Steps -/

/-- The context that has the processor goes on with other code, and writes down at most that
something else has ended. -/
theorem goes {code : List Code} (leads : system.machine.Leads after.machine)
    (contexts : after.contexts = system.contexts.set system.current (.ofCode code))
    (paired : Paired (system.current = .idle) code)
    (quiet : ¬ Returned system after) : Proceeds system after where
  leads := leads
  poised := poised.set leads contexts (.ofCode paired)
  returned wrote := absurd wrote quiet

/-- A violation ends a thread, or the script. -/
theorem fails {kernel : Kernel Uniprocessor} (retains : system.machine.Retains kernel.machine)
    (name : String) (violation : Violation)
    (there : system.contexts.get? system.current = some context)
    (paired : Paired (system.current = .idle) context.code) :
    Proceeds system (({ system with kernel } : Simulation).fail system.current name violation) := by
  unfold fail
  split
  · exact ⟨retains.leads, poised.keep retains.leads there paired fun _ _ => .inl, fun wrote =>
      absurd wrote (not_returned_of_wrote rfl (.inr (by simp)))⟩
  · rename_i thread
    have runs : kernel.machine.running = some system.current :=
      retains.running.trans (running_of_current thread)
    have ended : kernel.machine.Leads (kernel.machine.retire system.current (some violation)) :=
      .single (.ends (some violation)) (by rw [Event.perform, runs]; rfl)
    have leads := retains.leads.trans ended
    exact ⟨leads, poised.erase leads rfl, fun wrote => absurd wrote (not_returned_of_same rfl)⟩

/-- A call goes as far as it goes. -/
theorem carries {name : String} (ordinary : Ordinary name) {rest : List Code}
    {call : KernelM Uniprocessor Progress} (serves : Serves system.machine (call system.kernel))
    (there : system.contexts.get? system.current = some context)
    (whole : Paired (system.current = .idle) context.code)
    (paired : Paired (system.current = .idle) rest) :
    Proceeds system (system.carryOn system.current name rest call) := by
  unfold carryOn
  split
  · rename_i reply kernel ok
    rw [ok] at serves
    exact poised.goes (Retains.leads serves) rfl paired
      (not_returned_of_wrote rfl (.inl ordinary))
  · rename_i owed kernel ok
    rw [ok] at serves
    have leads : system.machine.Leads kernel.machine := Departs.leads serves
    exact
      { leads
        poised := poised.set leads rfl ⟨.inl paired, fun _ _ call => by cases call; exact ordinary⟩
        returned := fun wrote => absurd wrote (not_returned_of_same rfl) }
  · rename_i kernel ok
    rw [ok] at serves
    have retains : system.machine.Retains kernel.machine := serves
    split
    · exact poised.goes retains.leads rfl paired (not_returned_of_wrote rfl (.inl ordinary))
    · rename_i thread
      have runs : kernel.machine.running = some system.current :=
        retains.running.trans (running_of_current thread)
      have ended : kernel.machine.Leads (kernel.machine.retire system.current none) :=
        .single (.ends none) (by rw [Event.perform, runs]; rfl)
      have leads := retains.leads.trans ended
      exact ⟨leads, poised.erase leads rfl, fun wrote => absurd wrote (not_returned_of_same rfl)⟩
  · rename_i violation kernel failed
    rw [failed] at serves
    exact poised.fails serves name violation there whole

/-- An operation begins. -/
theorem begins {operation : Operation} {rest : List Code}
    (there : system.contexts.get? system.current = some (.ofCode (.operation operation :: rest)))
    (paired : Paired (system.current = .idle) rest) :
    Proceeds system (system.begin system.current rest operation) := by
  have whole : Paired (system.current = .idle) (.operation operation :: rest) := .free rfl paired
  cases operation with
  | request call =>
    exact poised.carries (ordinary_request call) (call.serves system.kernel) there whole paired
  | bracket body =>
    exact poised.goes (.single (.setInterrupts false) rfl) rfl
      (Paired.append (.free rfl paired) body)
      (not_returned_of_wrote rfl (.inl (by decide)))
  | times count body =>
    cases count with
    | zero => exact poised.goes (.refl _) rfl paired (not_returned_of_same rfl)
    | succ count =>
      exact poised.goes (.refl _) rfl (Paired.append (.free rfl paired) body)
        (not_returned_of_same rfl)
  | spawn body =>
    have spawned : system.machine.Leads system.machine.spawn.2 := .single .spawn rfl
    have more : Poised ((system.withMachine system.machine.spawn.2).setContext
        system.machine.spawn.1 (.ofScript body)) := by
      refine poised.keep spawned there whole fun who other there' => ?_
      rw [setContext, Directory.get?_set] at there'
      split at there'
      · cases there'
        exact .inr (.ofCode (.script _ body))
      · exact .inl there'
    have quiet : ¬ Returned system (system.begin system.current rest (.spawn body)) :=
      not_returned_of_wrote rfl (.inl (by decide))
    exact
      { leads := spawned
        poised := more.set (.refl _) rfl (.ofCode paired)
        returned := fun wrote => absurd wrote quiet }
  | status name =>
    exact poised.goes (.refl _) rfl paired
      (not_returned_of_wrote rfl (.inl (by decide)))
  | ticks =>
    exact poised.goes (.refl _) rfl paired
      (not_returned_of_wrote rfl (.inl (by decide)))
  | raise text => exact poised.fails (.refl _) _ _ there whole
  | run | runTimer =>
    unfold begin
    dsimp only
    split
    · rename_i idle
      exact poised.goes (.refl _) rfl (.pair (by simpa using idle) rfl paired)
        (not_returned_of_same rfl)
    · exact poised.fails (.refl _) _ _ there whole
  | foreign name => exact poised.fails (.refl _) _ _ there whole

/-- The driver dispatches a thread, takes up a violation, or finds that no thread is ready. -/
theorem dispatches {name : String} {piece : Code} {rest : List Code}
    (driver : system.current = .idle) (concludes : piece.concludes = true)
    (paired : Paired true rest)
    (there : system.contexts.get? system.current =
      some (.ofCode (.dispatch name :: piece :: rest))) :
    Proceeds system (system.dispatch system.current name (.dispatch name :: piece :: rest)
      (piece :: rest)) := by
  have rests := poised.rests driver
  have whole : Paired (system.current = .idle) (.dispatch name :: piece :: rest) := by
    rw [decide_eq_true driver]
    exact .pair rfl concludes paired
  unfold dispatch
  split
  · rename_i violation fault
    have taken : system.machine.Leads { system.machine with fault := none } :=
      .single .takeUp (by rw [Event.perform, if_pos ⟨rests, by simp [fault]⟩])
    rw [fail, if_pos driver]
    exact ⟨taken, poised.keep taken there whole fun _ _ => .inl, fun wrote =>
      absurd wrote (not_returned_of_wrote rfl (.inr (by simp)))⟩
  · rename_i fault
    split
    · rename_i machine next
      have dispatched : system.machine.Leads machine :=
        .single .dispatch (by rw [Event.perform, if_pos ⟨rests, fault⟩, next])
      exact poised.goes dispatched rfl whole (not_returned_of_same rfl)
    · rename_i none
      have nobody := dispatch?_eq_none none
      exact
        { leads := .refl _
          poised := poised.set (.refl _) rfl ⟨.inr ⟨driver, rfl, rests, nobody, piece, rest, rfl,
            concludes, paired⟩, fun _ _ call => by cases call⟩
          returned := fun wrote => absurd wrote (not_returned_of_same rfl) }

/-- The driver, which has found that no thread is ready, writes that down or lets the clock tick. -/
theorem concludes {piece : Code} {rest : List Code} (driver : system.current = .idle)
    (nobody : system.machine.ready = []) (last : piece.concludes = true)
    (paired : Paired true rest) :
    Proceeds system (system.execute system.current rest piece) := by
  have rests := poised.rests driver
  rw [← decide_eq_true driver] at paired
  have announces : ∀ name, Proceeds system
      ((system.write system.current name (.replied .nothing)).setContext system.current
        (.ofCode rest)) := fun name =>
    { leads := .refl _
      poised := poised.set (.refl _) rfl (.ofCode paired)
      returned := fun _ => ⟨rests, nobody⟩ }
  cases piece with
  | report name => exact announces name
  | awaitTick timer idle =>
    show Proceeds system (system.awaitTick system.current timer idle rest)
    unfold awaitTick
    split
    · exact announces runTimerName
    · have ticked :
        system.machine.Leads { system.machine with clock := system.machine.clock + 1 } :=
        .single .tick (by rw [Event.perform, if_pos rests])
      have ends : Paired (system.current = .idle)
          (.endTick timer idle system.machine.interrupts :: rest) :=
        .free (decide_eq_true driver) paired
      refine poised.goes (ticked.trans (.single (.setInterrupts false) rfl)) rfl ?_
        (not_returned_of_same rfl)
      rw [List.append_assoc]
      refine Paired.append ?_ _
      split
      · exact .free (decide_eq_true driver) ends
      · exact ends
  | _ => cases last

/-- A piece of code that may stand anywhere is run. -/
theorem executes {piece : Code} {rest : List Code}
    (there : system.contexts.get? system.current = some (.ofCode (piece :: rest)))
    (free : piece.free (system.current = .idle) = true)
    (paired : Paired (system.current = .idle) rest) :
    Proceeds system (system.execute system.current rest piece) := by
  have whole : Paired (system.current = .idle) (piece :: rest) := .free free paired
  cases piece with
  | operation operation => exact poised.begins there paired
  | leave saved =>
    exact poised.goes (.single (.setInterrupts saved) rfl) rfl paired (not_returned_of_same rfl)
  | alarm tick =>
    have serves := onTick_serves tick system.kernel
    show Proceeds system (system.handleTick system.current tick rest)
    unfold handleTick
    split
    · rename_i progress kernel ok
      rw [ok] at serves
      exact poised.goes serves.leads rfl paired (not_returned_of_same rfl)
    · rename_i violation kernel failed
      rw [failed] at serves
      exact poised.fails serves _ _ there whole
  | endTick timer idle saved =>
    exact poised.goes (.single (.setInterrupts saved) rfl) rfl (.pair free rfl paired)
      (not_returned_of_same rfl)
  | _ => cases free

/-- Whoever makes a step, the machine changes as events do, and the system stays poised. -/
theorem proceeds (h : system.step = some after) : Proceeds system after := by
  unfold step at h
  split at h
  · cases h
  · dsimp only at h
    split at h
    · cases h
    · rename_i name owed code there
      cases h
      obtain ⟨paired | ⟨-, drained⟩, names⟩ := poised.fits _ _ there
      · exact poised.carries (names name owed rfl) (resume_serves .nothing owed system.kernel) there
          paired paired
      · cases drained.idle
    · rename_i piece rest there
      cases h
      obtain ⟨paired | ⟨driver, drained⟩, -⟩ := poised.fits _ _ there
      · cases paired with
        | free free paired => exact poised.executes there free paired
        | pair drives concludes paired =>
          have driver : system.current = .idle := by simpa using drives
          rw [decide_eq_true driver] at paired
          exact poised.dispatches driver concludes paired there
      · obtain ⟨piece, rest, same, concludes, paired⟩ := drained.code
        cases same
        exact poised.concludes driver drained.nobody concludes paired
    · split at h
      · cases h
      · rename_i thread
        cases h
        have ended : system.machine.Leads (system.machine.retire system.current none) :=
          .single (.ends none) (by rw [Event.perform, running_of_current thread]; rfl)
        exact ⟨ended, poised.erase ended rfl, fun wrote =>
          absurd wrote (not_returned_of_same rfl)⟩

end Poised

theorem poised_start (config : Config) (idleLimit : Nat) (script : List Operation) :
    (start config idleLimit script).Poised where
  leads := .refl _
  fits who context there := by
    rw [start, Directory.get?_set] at there
    split at there
    · cases there
      exact .ofCode (.script _ script)
    · cases there

/-- The driver may always turn to another script. -/
theorem Poised.again (poised : system.Poised) (script : List Operation) :
    Poised { system.setContext .idle (.ofScript script) with ended := false } where
  leads := poised.leads
  fits who context there := by
    have there : (system.contexts.set .idle (.ofScript script)).get? who = some context := there
    rw [Directory.get?_set] at there
    split at there
    · cases there
      exact .ofCode (.script _ script)
    · rename_i ne
      obtain ⟨paired | ⟨idle, -⟩, names⟩ := poised.fits who context there
      · exact ⟨.inl paired, names⟩
      · exact absurd idle (Ne.symm ne)

/-- Every session is poised. -/
theorem Session.poised (session : Session system) : system.Poised := by
  induction session with
  | start config idleLimit script => exact poised_start config idleLimit script
  | step session h ih => exact (ih.proceeds h).poised
  | again session stopped script ih => exact ih.again script

theorem Session.steps (session : Session system) (count : Nat) : Session (steps count system) := by
  induction count generalizing system with
  | zero => exact session
  | succ count ih =>
    unfold Simulation.steps
    split
    · rename_i next h
      exact ih (session.step h)
    · exact session

/-! ## Baton and ready list -/

/-- Whatever happens on a machine, in any order: the ready list and the processor are as the threads
say, threads run in the order in which they came to be ready, every thread has a number of its own,
one that has ended stays so, and where the driver finds nobody to dispatch everybody sleeps or has
ended. The steps of any scripts are such events, and where dispatching or ticking is said to have
ended everybody sleeps or has ended. -/
theorem baton_and_ready_list :
    (∀ events machine, runs events fresh = some machine →
      machine.Agrees ∧
      came .ready events fresh = came .running events fresh ++ machine.ready ∧
      (spawned events fresh).Nodup ∧
      (∀ thread, thread ∈ spawned events fresh ↔ (machine.status? thread).isSome) ∧
      (∀ more later, runs more machine = some later → ∀ thread,
        machine.status? thread = some .finished → later.status? thread = some .finished) ∧
      (machine.current = .idle → machine.dispatch? = none → ∀ thread status,
        machine.status? thread = some status → status = .blocked ∨ status = .finished)) ∧
    ∀ system, Session system → fresh.Leads system.machine ∧
      ∀ after, system.step = some after → system.machine.Leads after.machine ∧
        (Returned system after → after.current = .idle ∧ ∀ thread status,
          after.machine.status? thread = some status → status = .blocked ∨ status = .finished) := by
  refine ⟨fun events machine happened => ?_, fun system session => ?_⟩
  · have sane := sane_of_runs happened sane_fresh
    have agrees := Agrees.of_sane sane
    refine ⟨agrees, came_of_runs happened sane_fresh, nodup_spawned happened,
      mem_spawned_iff happened, fun more later goes thread ended =>
        finished_of_runs goes sane ended,
      fun driver none thread status stands => ?_⟩
    exact agrees.asleep_or_finished (sane.current_eq_idle_iff.mp driver) (dispatch?_eq_none none)
      stands
  · refine ⟨session.poised.leads, fun after h => ?_⟩
    obtain ⟨leads, poised, returned⟩ := session.poised.proceeds h
    refine ⟨leads, fun wrote => ?_⟩
    obtain ⟨rests, nobody⟩ := returned wrote
    exact ⟨poised.sane.current_eq_idle_iff.mpr rests, fun thread status stands =>
      (Agrees.of_sane poised.sane).asleep_or_finished rests nobody stands⟩

/-- Two threads take turns: the second goes to sleep, the first wakes it and ends by a violation,
and a third is made that has not run yet. -/
def turnsTaken : List Event :=
  [.spawn, .spawn, .dispatch, .yield, .dispatch, .setInterrupts false, .sleep, .dispatch,
    .setInterrupts false, .ready ⟨2⟩, .ends (some (.raised "gives up")), .takeUp, .tick, .spawn,
    .dispatch, .ends none]

/-- Two threads, the second of which sleeps for good. -/
def leftAsleep : List Operation :=
  [.spawn [.request .yield], .spawn [.request .disable, .request .sleep], .run]

theorem baton_and_ready_list_turns :
    (∃ machine, runs turnsTaken fresh = some machine ∧ machine.Agrees ∧
      came .ready turnsTaken fresh = [⟨1⟩, ⟨2⟩, ⟨1⟩, ⟨2⟩] ++ machine.ready) ∧
    Returned (steps 12 (start .default 10 leftAsleep)) (steps 13 (start .default 10 leftAsleep)) ∧
    ∀ status, (steps 13 (start .default 10 leftAsleep)).machine.status? ⟨2⟩ = some status →
      status = .blocked ∨ status = .finished := by
  obtain ⟨events, sessions⟩ := baton_and_ready_list
  have possible : (runs turnsTaken fresh).isSome = true := by decide +kernel
  obtain ⟨machine, happened⟩ := Option.isSome_iff_exists.mp possible
  obtain ⟨agrees, order, -⟩ := events turnsTaken machine happened
  have ran : came .running turnsTaken fresh = [⟨1⟩, ⟨2⟩, ⟨1⟩, ⟨2⟩] := by decide +kernel
  rw [ran] at order
  have returned : Returned (steps 12 (start .default 10 leftAsleep))
      (steps 13 (start .default 10 leftAsleep)) := ⟨"run", .inl rfl, by decide +kernel⟩
  obtain ⟨-, goes⟩ := sessions _ ((Session.start .default 10 leftAsleep).steps 12)
  obtain ⟨-, ends⟩ := goes (steps 13 (start .default 10 leftAsleep)) rfl
  exact ⟨⟨machine, happened, agrees, order⟩, returned, (ends returned).2 ⟨2⟩⟩

end Turnstile.Simulation
