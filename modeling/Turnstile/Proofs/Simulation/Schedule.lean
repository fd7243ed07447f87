import Turnstile.Proofs.Simulation.Advance

/-!
# The driver's schedule

Where the driver is in its work beside the clock. A script attends to the clock if each of its
timers lets the alarm handle every tick, and starts no timer from the agenda of another
(`Operation.attended`). Then the driver is between timers or in one of four phases of a round
(`Schedule`): it dispatches until nobody is ready, lets the clock tick, performs what the agenda has
for the tick and handles it, and ends the tick.

`Schedule.turns` says what becomes of this when the driver turns to other code. The clock ticks only
where nobody is ready and no tick is left to be handled, and then the new tick is.
-/

namespace Turnstile.Simulation

/-! ## Scripts that attend to the clock -/

mutual

/-- Whether every timer that an operation starts lets the alarm handle each tick. `may` says whether
it may start one at all, and `nests` whether an agenda may. Threads start none. -/
def Operation.attended (nests : Bool) : Bool → Operation → Bool
  | may, .bracket body => attendedAll nests may body
  | may, .times _ body => attendedAll nests may body
  | may, .runTimer alarm agenda => may && alarm && attendedAgenda nests agenda
  | _, .request _ => true
  | _, .spawn _ => true
  | _, .status _ => true
  | _, .ticks => true
  | _, .raise _ => true
  | _, .run => true
  | _, .foreign _ => true

/-- Whether every timer that some operations start lets the alarm handle each tick. -/
def attendedAll (nests : Bool) : Bool → List Operation → Bool
  | _, [] => true
  | may, operation :: rest => operation.attended nests may && attendedAll nests may rest

/-- Whether every timer that an agenda starts lets the alarm handle each tick. -/
def attendedAgenda (nests : Bool) : List (Nat × List Operation) → Bool
  | [] => true
  | entry :: rest => attendedEntry nests entry && attendedAgenda nests rest

/-- Whether every timer that an entry of an agenda starts lets the alarm handle each tick. -/
def attendedEntry (nests : Bool) : Nat × List Operation → Bool
  | (_, operations) => attendedAll nests nests operations

end

/-- Whether the timer lets the alarm handle each tick, and starts no other timer. -/
def Timer.attended (timer : Timer) : Bool := timer.alarm && attendedAgenda false timer.agenda

variable {nests may : Bool}

theorem attendedAll_iff {operations : List Operation} : attendedAll nests may operations = true ↔
    ∀ operation ∈ operations, operation.attended nests may = true := by
  induction operations with
  | nil => simp [attendedAll]
  | cons operation rest ih => simp [attendedAll, ih]

theorem attendedAgenda_iff {agenda : List (Nat × List Operation)} :
    attendedAgenda nests agenda = true ↔
      ∀ entry ∈ agenda, ∀ operation ∈ entry.2, operation.attended nests nests = true := by
  induction agenda with
  | nil => simp [attendedAgenda]
  | cons entry rest ih =>
    obtain ⟨tick, operations⟩ := entry
    simp [attendedAgenda, attendedEntry, attendedAll_iff, ih]

/-! ## Code that scripts begin -/

/-- Whether a piece of code is not part of a round of a timer, and starts no other if it
`may` not. -/
def Code.attends (may : Bool) : Code → Bool
  | .operation performed => performed.attended false may
  | .leave _ => true
  | .dispatch _ => true
  | .report _ => true
  | .awaitTick .. => false
  | .alarm _ => false
  | .endTick .. => false

/-- Whether a piece of code is what a script says, or the end of that. -/
def Code.scripted : Code → Bool
  | .operation _ => true
  | .leave _ => true
  | .report _ => true
  | _ => false

/-- Code no piece of which is part of a round of a timer, or starts one if it `may` not. -/
def Attentive (may : Bool) (code : List Code) : Prop := ∀ piece ∈ code, piece.attends may = true

theorem attentive_cons {piece : Code} {rest : List Code} :
    Attentive may (piece :: rest) ↔ piece.attends may = true ∧ Attentive may rest := by
  simp [Attentive]

theorem attentive_append {code rest : List Code} :
    Attentive may (code ++ rest) ↔ Attentive may code ∧ Attentive may rest := by
  simp [Attentive, or_imp, forall_and]

theorem attentive_ofScript {script : List Operation} :
    Attentive may (Code.ofScript script) ↔ attendedAll false may script = true := by
  simp [Attentive, Code.ofScript, Code.attends, attendedAll_iff]

theorem Attentive.no_alarm {code : List Code} (attentive : Attentive may code) (tick : Nat) :
    Code.alarm tick ∉ code := fun here => by cases attentive _ here

/-- What a timer has for a tick starts no other timer. -/
theorem attentive_operationsAt {timer : Timer} (attended : timer.attended = true) (tick : Nat) :
    Attentive false (Code.ofScript (timer.operationsAt tick)) := by
  obtain ⟨-, agenda⟩ := Bool.and_eq_true_iff.mp attended
  rw [attendedAgenda_iff] at agenda
  rw [attentive_ofScript, attendedAll_iff]
  intro operation h
  obtain ⟨operations, ho, here⟩ := List.mem_flatten.mp h
  obtain ⟨entry, he, rfl⟩ := List.mem_map.mp ho
  exact agenda entry (List.mem_of_mem_filter he) operation here

/-! ## The phases of a round -/

/-- The clock has ticked, and once the agenda has been performed the alarm will handle that. -/
inductive Ticking (clock : Nat) : List Code → Prop
  | agenda {piece : Code} {rest : List Code} (attends : piece.attends false = true)
    (ticking : Ticking clock rest) : Ticking clock (piece :: rest)
  | alarm {timer : Timer} {idle : Nat} {saved : Bool} {rest : List Code}
    (attended : timer.attended = true) (attentive : Attentive true rest) :
    Ticking clock (.alarm clock :: .endTick timer idle saved :: rest)

/-- The driver is between timers, or in one of the phases of a round. -/
inductive Schedule (clock : Nat) (ready : List ThreadId) : List Code → Prop
  | between {code : List Code} (attentive : Attentive true code) : Schedule clock ready code
  | drains {name : String} {timer : Timer} {idle : Nat} {rest : List Code}
    (attended : timer.attended = true) (attentive : Attentive true rest) :
    Schedule clock ready (.dispatch name :: .awaitTick timer idle :: rest)
  | awaits {timer : Timer} {idle : Nat} {rest : List Code} (nobody : ready = [])
    (attended : timer.attended = true) (attentive : Attentive true rest) :
    Schedule clock ready (.awaitTick timer idle :: rest)
  | handles {code : List Code} (ticking : Ticking clock code) : Schedule clock ready code
  | closes {timer : Timer} {idle : Nat} {saved : Bool} {rest : List Code}
    (attended : timer.attended = true) (attentive : Attentive true rest) :
    Schedule clock ready (.endTick timer idle saved :: rest)

/-- The clock stands still, and a tick that was to be handled still is; or it ticks, where nobody is
ready and no tick was to be handled, and that tick is to be handled then. -/
inductive Passage (clock : Nat) (ready : List ThreadId) (code next : List Code) : Nat → Prop
  | still (alarms : ∀ tick, .alarm tick ∈ code → .alarm tick ∈ next) :
    Passage clock ready code next clock
  | ticks (nobody : ready = []) (handled : ∀ tick, .alarm tick ∉ code)
    (alarm : .alarm (clock + 1) ∈ next) : Passage clock ready code next (clock + 1)

variable {clock : Nat} {ready : List ThreadId} {rest : List Code}

theorem Ticking.append {new : List Code} (attentive : Attentive false new)
    (ticking : Ticking clock rest) : Ticking clock (new ++ rest) := by
  induction new with
  | nil => exact ticking
  | cons piece new ih =>
    obtain ⟨attends, attentive⟩ := attentive_cons.mp attentive
    exact .agenda attends (ih attentive)

namespace Schedule

/-- Where the driver does what its script says, it is between timers or performs an agenda, and
other code that does not start a timer there may take the place of that. -/
theorem scripted {piece : Code} (schedule : Schedule clock ready (piece :: rest))
    (scripted : piece.scripted = true) :
    ∃ may, piece.attends may = true ∧ (may = true → Attentive true rest) ∧
      ∀ {new ready}, Attentive may new → Schedule clock ready (new ++ rest) := by
  cases schedule with
  | between attentive =>
    obtain ⟨attends, attentive⟩ := attentive_cons.mp attentive
    exact ⟨true, attends, fun _ => attentive,
      fun new => .between (attentive_append.mpr ⟨new, attentive⟩)⟩
  | drains | awaits | closes => cases scripted
  | handles ticking =>
    cases ticking with
    | agenda attends ticking =>
      exact ⟨false, attends, nofun, fun new => .handles (ticking.append new)⟩
    | alarm => cases scripted

/-- Code that starts no timer may take the place of what the script says. A tick that was to be
handled still is. -/
theorem proceeds {piece : Code} {new : List Code} (schedule : Schedule clock ready (piece :: rest))
    (scripted : piece.scripted = true)
    (begins : ∀ may, piece.attends may = true → Attentive may new) (later : List ThreadId) :
    Schedule clock later (new ++ rest) ∧
      ∀ tick, .alarm tick ∈ piece :: rest → .alarm tick ∈ new ++ rest := by
  obtain ⟨may, attends, -, goes⟩ := schedule.scripted scripted
  refine ⟨goes (begins may attends), fun tick here => List.mem_append_right new ?_⟩
  rcases List.mem_cons.mp here with rfl | here
  · cases scripted
  · exact here

/-- While the driver dispatches, anybody may be ready; it goes on when nobody is. -/
theorem dispatch {name : String} (schedule : Schedule clock ready (.dispatch name :: rest)) :
    (∀ ready, Schedule clock ready (.dispatch name :: rest)) ∧ Schedule clock [] rest := by
  cases schedule with
  | between attentive =>
    exact ⟨fun _ => .between attentive, .between (attentive_cons.mp attentive).2⟩
  | drains attended attentive =>
    exact ⟨fun _ => .drains attended attentive, .awaits rfl attended attentive⟩
  | handles ticking =>
    refine ⟨fun _ => .handles ticking, ?_⟩
    cases ticking with
    | agenda attends ticking => exact .handles ticking

/-- The clock may tick where nobody is ready. -/
theorem awaitTick {timer : Timer} {idle : Nat}
    (schedule : Schedule clock ready (.awaitTick timer idle :: rest)) :
    ready = [] ∧ timer.attended = true ∧ Attentive true rest := by
  cases schedule with
  | between attentive => cases (attentive_cons.mp attentive).1
  | awaits nobody attended attentive => exact ⟨nobody, attended, attentive⟩
  | handles ticking =>
    cases ticking with
    | agenda attends => cases attends

/-- The tick that the alarm handles is the one that the clock shows. -/
theorem alarm {tick : Nat} (schedule : Schedule clock ready (.alarm tick :: rest)) :
    tick = clock ∧ ∀ ready, Schedule clock ready rest := by
  cases schedule with
  | between attentive => cases (attentive_cons.mp attentive).1
  | handles ticking =>
    cases ticking with
    | agenda attends => cases attends
    | alarm attended attentive => exact ⟨rfl, fun _ => .closes attended attentive⟩

theorem endTick {timer : Timer} {idle : Nat} {saved : Bool}
    (schedule : Schedule clock ready (.endTick timer idle saved :: rest)) :
    timer.attended = true ∧ Attentive true rest := by
  cases schedule with
  | between attentive => cases (attentive_cons.mp attentive).1
  | closes attended attentive => exact ⟨attended, attentive⟩
  | handles ticking =>
    cases ticking with
    | agenda attends => cases attends

/-- What becomes of the schedule, and of time, when the driver turns to other code. -/
theorem turns {system : Simulation} {code next : List Code}
    (schedule : Schedule system.machine.clock system.machine.ready code)
    (turn : Turns system code next clock) :
    Schedule clock system.machine.ready next ∧
      Passage system.machine.clock system.machine.ready code next clock := by
  -- Most code lets time stand still and puts code in its place that attends to the alarm
  -- as it did itself.
  have still : ∀ {piece rest} new,
      Schedule system.machine.clock system.machine.ready (piece :: rest) →
      piece.scripted = true → (∀ may, piece.attends may = true → Attentive may new) →
      Schedule system.machine.clock system.machine.ready (new ++ rest) ∧
        Passage system.machine.clock system.machine.ready (piece :: rest) (new ++ rest)
          system.machine.clock := fun new schedule scripted begins =>
    (schedule.proceeds scripted begins _).imp_right .still
  cases turn with
  | @bracket body rest =>
    have moved := still (Code.ofScript body ++ [.leave system.machine.interrupts]) schedule rfl
      fun may attends => attentive_append.mpr
        ⟨attentive_ofScript.mpr attends, by simp [Attentive, Code.attends]⟩
    simpa using moved
  | never | status | ticks | leave | report => exact still [] schedule rfl fun may attends => nofun
  | @again count body rest =>
    have moved := still (Code.ofScript body ++ [.operation (.times count body)]) schedule rfl
      fun may attends => attentive_append.mpr
        ⟨attentive_ofScript.mpr attends, attentive_cons.mpr ⟨attends, nofun⟩⟩
    simpa using moved
  | run =>
    exact still [.dispatch "run", .report "run"] schedule rfl fun may _ => by
      simp [Attentive, Code.attends]
  | @runTimer alarm agenda rest =>
    obtain ⟨may, attends, attentive, -⟩ := schedule.scripted rfl
    have attends : (may && alarm && attendedAgenda false agenda) = true := attends
    simp only [Bool.and_eq_true] at attends
    obtain ⟨⟨rfl, alarmed⟩, agenda⟩ := attends
    refine ⟨.drains ?_ (attentive rfl), .still fun tick here => ?_⟩
    · exact Bool.and_eq_true_iff.mpr ⟨alarmed, agenda⟩
    · exact absurd here
        ((attentive_cons.mpr ⟨attends, attentive rfl⟩ : Attentive true _).no_alarm tick)
  | drained nobody =>
    obtain ⟨-, next⟩ := schedule.dispatch
    rw [nobody]
    exact ⟨next, .still fun tick here => by simpa using here⟩
  | stops =>
    obtain ⟨-, -, attentive⟩ := schedule.awaitTick
    exact ⟨.between attentive, .still fun tick here => by simpa using here⟩
  | @tick timer idle saved rest =>
    obtain ⟨nobody, attended, attentive⟩ := schedule.awaitTick
    obtain ⟨alarm, -⟩ := Bool.and_eq_true_iff.mp attended
    rw [alarm, if_pos rfl, List.append_assoc]
    refine ⟨.handles (.append (attentive_operationsAt attended _) (.alarm attended attentive)),
      .ticks nobody (fun tick here => ?_) (by simp)⟩
    exact attentive.no_alarm tick (by simpa using here)
  | endTick =>
    obtain ⟨attended, attentive⟩ := schedule.endTick
    exact ⟨.drains attended attentive, .still fun tick here => by simpa using here⟩

end Schedule

end Turnstile.Simulation
