import Turnstile.Proofs.Tables.Leaving
import Turnstile.Proofs.Tables.Waiting

/-!
# Reachable tables

Tables are **reachable** (`Tables.Reachable`) if some calls, none of them a violation, lead to
them from tables that have dealt with nobody. Handles, threads and weights of the calls are
arbitrary.

* **One call** leaves sound tables (`perform_sound`), so all reachable tables are sound
  (`Reachable.sound`).
* **`run`** performs calls in a row; whatever it arrives at is reachable (`Reachable.run`).
  `Arrives` can be decided, so that a run on given calls can be looked at.
-/

namespace Turnstile.Tables

/-- A call of the scheduler's tables. -/
inductive Call
  | newQueue (donation : Bool)
  | closeQueue (id : QueueId)
  | enqueue (id : QueueId) (thread : ThreadId)
  | acquire (id : QueueId) (thread : ThreadId)
  | handOver (id : QueueId)
  | baseOf (thread : ThreadId)
  | setBase (thread : ThreadId) (weight : Int)
  | effective (thread : ThreadId)
  | forget (thread : ThreadId)
deriving DecidableEq, Repr

/-- What a call gives back. -/
inductive Answer
  | nothing
  | queue (id : QueueId)
  | winner (thread : Option ThreadId)
  | weight (weight : Int)
deriving DecidableEq, Repr

/-- Perform a call. -/
def Call.perform : Call → Tables → Except Violation (Answer × Tables)
  | newQueue donation, tables =>
    .ok (.queue (tables.newQueue donation).1, (tables.newQueue donation).2)
  | closeQueue id, tables => (tables.closeQueue id).map (.nothing, ·)
  | enqueue id thread, tables => (tables.enqueue id thread).map (.nothing, ·)
  | acquire id thread, tables => (tables.acquire id thread).map (.nothing, ·)
  | handOver id, tables => (tables.handOver id).map fun (winner, after) => (.winner winner, after)
  | baseOf thread, tables => .ok (.weight (tables.baseOf thread).1, (tables.baseOf thread).2)
  | setBase thread weight, tables => (tables.setBase thread weight).map (.nothing, ·)
  | effective thread, tables =>
    (tables.effective thread).map fun (weight, after) => (.weight weight, after)
  | forget thread, tables => (tables.forget thread).map (.nothing, ·)

/-- Perform calls in a row, up to a violation. -/
def run : List Call → Tables → Except Violation Tables
  | [], tables => .ok tables
  | call :: rest, tables =>
    match call.perform tables with
    | .ok (_, after) => run rest after
    | .error violation => .error violation

/-- Calls in a row, none of them a violation, lead to tables of which `P` holds. -/
def Arrives (calls : List Call) (tables : Tables) (P : Tables → Prop) : Prop :=
  ∃ after, run calls tables = .ok after ∧ P after

instance (calls : List Call) (tables : Tables) (P : Tables → Prop) [DecidablePred P] :
    Decidable (Arrives calls tables P) :=
  match h : run calls tables with
  | .ok after => decidable_of_iff (P after)
      ⟨fun hp => ⟨after, h, hp⟩, fun ⟨_, h', hp⟩ => Except.ok.inj (h.symm.trans h') ▸ hp⟩
  | .error _ => .isFalse fun ⟨_, h', _⟩ => nomatch h.symm.trans h'

/-- What holds where calls arrive may be worked out from something simpler that holds there. -/
theorem Arrives.imp {calls : List Call} {tables : Tables} {P Q : Tables → Prop}
    (arrives : Arrives calls tables P)
    (h : ∀ after, run calls tables = .ok after → P after → Q after) : Arrives calls tables Q := by
  obtain ⟨after, ok, holds⟩ := arrives
  exact ⟨after, ok, h after ok holds⟩

/-- Calls without a violation lead to the tables. -/
inductive Reachable : Tables → Prop
  | fresh (policy : Policy) (seed : UInt64) : Reachable (fresh policy seed)
  | step {tables after : Tables} {answer : Answer} (call : Call) :
      Reachable tables → call.perform tables = .ok (answer, after) → Reachable after

variable {tables after : Tables}

theorem Reachable.run (reachable : tables.Reachable) {calls : List Call}
    (h : Tables.run calls tables = .ok after) : after.Reachable := by
  induction calls generalizing tables with
  | nil =>
    cases h
    exact reachable
  | cons call rest ih =>
    rw [Tables.run] at h
    cases hp : call.perform tables with
    | error violation =>
      rw [hp] at h
      cases h
    | ok done =>
      obtain ⟨answer, next⟩ := done
      rw [hp] at h
      exact ih (reachable.step call hp) h

/-! ## One call -/

theorem ok_of_map {α β : Type} {result : Except Violation α} {f : α → β} {b : β}
    (h : result.map f = .ok b) : ∃ a, result = .ok a ∧ f a = b := by
  cases result with
  | error violation => cases h
  | ok a =>
    cases h
    exact ⟨a, rfl, rfl⟩

theorem perform_sound {call : Call} {answer : Answer} (sound : tables.Sound)
    (h : call.perform tables = .ok (answer, after)) : after.Sound := by
  cases call with
  | newQueue donation =>
    cases h
    exact newQueue_ok sound donation
  | closeQueue id =>
    obtain ⟨closed, ok, he⟩ := ok_of_map h
    cases he
    obtain ⟨queue, live, nobody⟩ := live_of_closeQueue ok
    obtain ⟨other, ok', sound', -⟩ := closeQueue_ok sound live nobody
    cases ok.symm.trans ok'
    exact sound'
  | enqueue id thread =>
    obtain ⟨waiting, ok, he⟩ := ok_of_map h
    cases he
    exact (enqueue_ok sound ok).2.1
  | acquire id thread =>
    obtain ⟨acquired, ok, he⟩ := ok_of_map h
    cases he
    obtain ⟨-, -, -, sound', -⟩ := acquire_ok sound ok
    exact sound'
  | handOver id =>
    obtain ⟨⟨winner, handed⟩, ok, he⟩ := ok_of_map h
    cases he
    obtain ⟨queue, live⟩ := live_of_handOver ok
    obtain ⟨winner', other, ok', sound', -⟩ := handOver_ok sound live
    cases ok.symm.trans ok'
    exact sound'
  | baseOf thread =>
    cases h
    exact enrol_sound sound thread
  | setBase thread weight =>
    obtain ⟨weighed, ok, he⟩ := ok_of_map h
    cases he
    obtain ⟨other, ok', sound', -⟩ := setBase_ok sound thread weight
    cases ok.symm.trans ok'
    exact sound'
  | effective thread =>
    obtain ⟨⟨weight, weighed⟩, ok, he⟩ := ok_of_map h
    cases he
    obtain ⟨weight', other, ok', weighs, -⟩ :=
      effective_ok sound.linked sound.acyclic sound.coherent thread
    cases ok.symm.trans ok'
    exact sound.of_bare (by rw [ledger_bare_eq_of_bare weighs.bare, ledger_enrol])
      weighs.coherent
  | forget thread =>
    obtain ⟨left, ok, he⟩ := ok_of_map h
    cases he
    obtain ⟨other, ok', sound', -⟩ := forget_ok sound thread
    cases ok.symm.trans ok'
    exact sound'

theorem Reachable.sound (reachable : tables.Reachable) : tables.Sound := by
  induction reachable with
  | fresh policy seed => exact sound_fresh policy seed
  | step call _ h ih => exact perform_sound ih h

end Turnstile.Tables
