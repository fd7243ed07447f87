import Turnstile.Proofs.Tables.Reachable

/-!
# When calls fail

In reachable tables nobody lends to itself, and a call fails exactly when it breaches its
contract (`Call.Breaches`): the handle is stale, the thread waits or owns where it must not, or the
call would close a ring of lending (`fails_iff_breaches`). No other check can fail, and no ring
gets past the checks there are.

* **`Ring`** says of any relation that someone leads back to itself.
* **Joining** a donating queue adds the edge from the thread to the owner (`ring_join_iff`), and
  **acquiring** turns the edges of the queue to the new owner.
-/

namespace Turnstile

open Relation

/-- Somebody leads back to itself. -/
def Ring (edge : ThreadId → ThreadId → Prop) : Prop := ∃ thread, TransGen edge thread thread

namespace Ledger

variable {ledger : Ledger} {id : QueueId} {thread a b : ThreadId} {queue : Queue}

theorem not_acyclic_iff : ¬ ledger.Acyclic ↔ Ring ledger.Lends := by
  simp [Acyclic, Ring]

/-- Joining closes a ring exactly when the edge to the owner does. -/
theorem ring_join_iff (acyclic : ledger.Acyclic) (live : ledger.queue? id = some queue) :
    ¬ (ledger.join id thread).Acyclic ↔ queue.donation = true ∧ ∃ owner,
      queue.owner = some owner ∧ Ring fun a b => ledger.Lends a b ∨ a = thread ∧ b = owner := by
  have edges : ∀ owner, queue.donation = true → queue.owner = some owner →
      (ledger.join id thread).Lends = fun a b => ledger.Lends a b ∨ a = thread ∧ b = owner := by
    intro owner donation owns
    funext a b
    simp [lends_join_iff live, donation, owns, eq_comm (a := owner)]
  constructor
  · intro ring
    -- without a new edge there would be no ring
    obtain ⟨donation, owner, owns⟩ : queue.donation = true ∧ ∃ owner, queue.owner = some owner :=
      Classical.byContradiction fun none => ring <| acyclic.mono fun a b lends =>
        ((lends_join_iff live).mp lends).resolve_right fun ⟨donation, _, owns⟩ =>
          none ⟨donation, b, owns⟩
    rw [not_acyclic_iff, edges owner donation owns] at ring
    exact ⟨donation, owner, owns, ring⟩
  · rintro ⟨donation, owner, owns, ring⟩
    rw [not_acyclic_iff, edges owner donation owns]
    exact ring

end Ledger

namespace Tables

open Ledger

variable {tables : Tables}

/-- What the caller must not do. -/
def Call.Breaches (tables : Tables) : Call → Prop
  | newQueue _ => False
  | closeQueue id =>
    tables.queues.get? id = none ∨
      ∃ queue, tables.queues.get? id = some queue ∧ queue.waiting ≠ []
  | enqueue id thread =>
    tables.queues.get? id = none ∨
      ∃ queue, tables.queues.get? id = some queue ∧
        (queue.owner = some thread ∨ (∃ other, (tables.state thread).waitingOn = some other) ∨
          queue.donation = true ∧ ∃ owner, queue.owner = some owner ∧
            Ring fun a b => tables.ledger.Lends a b ∨ a = thread ∧ b = owner)
  | acquire id thread =>
    tables.queues.get? id = none ∨
      ∃ queue, tables.queues.get? id = some queue ∧
        (thread ∈ queue.waiting ∨
          Ring (tables.alter id fun queue => { queue with owner := some thread }).ledger.Lends)
  | handOver id => tables.queues.get? id = none
  | baseOf _ => False
  | setBase _ _ => False
  | effective _ => False
  | forget _ => False

theorem map_error_iff {α β : Type} {result : Except Violation α} {f : α → β} :
    (∃ violation, result.map f = .error violation) ↔ ¬ ∃ a, result = .ok a := by
  cases result <;> simp [Except.map]

section Calls

variable (sound : tables.Sound) {id : QueueId} {thread : ThreadId}
include sound

theorem closeQueue_isOk_iff : (∃ after, tables.closeQueue id = .ok after) ↔
    ∃ queue, tables.queues.get? id = some queue ∧ queue.waiting = [] := by
  constructor
  · rintro ⟨after, ok⟩
    exact live_of_closeQueue ok
  · rintro ⟨queue, live, nobody⟩
    obtain ⟨after, ok, -⟩ := closeQueue_ok sound live nobody
    exact ⟨after, ok⟩

theorem enqueue_isOk_iff : (∃ after, tables.enqueue id thread = .ok after) ↔
    ∃ queue, tables.CanWait id thread queue ∧ (tables.ledger.join id thread).Acyclic := by
  constructor
  · rintro ⟨after, ok⟩
    obtain ⟨⟨queue, can⟩, sound', bare⟩ := enqueue_ok sound ok
    exact ⟨queue, can, sound'.acyclic.congr (queue?_of_bare bare.symm)⟩
  · rintro ⟨queue, can, acyclic⟩
    exact enqueue_isOk sound can acyclic

theorem acquire_isOk_iff : (∃ after, tables.acquire id thread = .ok after) ↔
    ∃ queue, tables.queues.get? id = some queue ∧ thread ∉ queue.waiting ∧
      (tables.ledger.install id thread).Acyclic := by
  constructor
  · rintro ⟨after, ok⟩
    obtain ⟨queue, live, absent, sound', bare⟩ := acquire_ok sound ok
    exact ⟨queue, live, absent, sound'.acyclic.congr (queue?_of_bare bare.symm)⟩
  · rintro ⟨queue, live, absent, acyclic⟩
    exact acquire_isOk sound live absent acyclic

theorem handOver_isOk_iff : (∃ done, tables.handOver id = .ok done) ↔
    ∃ queue, tables.queues.get? id = some queue := by
  constructor
  · rintro ⟨⟨winner, after⟩, ok⟩
    exact live_of_handOver ok
  · rintro ⟨queue, live⟩
    obtain ⟨winner, after, ok, -⟩ := handOver_ok sound live
    exact ⟨(winner, after), ok⟩

theorem enqueue_fails_iff (stamps : tables.stamp < greatestStamp) :
    (¬ ∃ after, tables.enqueue id thread = .ok after) ↔
      (Call.enqueue id thread).Breaches tables := by
  rw [enqueue_isOk_iff sound]
  constructor
  · intro fails
    cases live : tables.queues.get? id with
    | none => exact .inl live
    | some queue =>
      refine .inr ⟨queue, live, ?_⟩
      by_cases owns : queue.owner = some thread
      · exact .inl owns
      · cases idle : (tables.state thread).waitingOn with
        | some other => exact .inr (.inl ⟨other, rfl⟩)
        | none =>
          refine .inr (.inr ((ring_join_iff sound.acyclic live).mp fun acyclic => fails ?_))
          exact ⟨queue, ⟨live, owns, Nat.ne_of_lt stamps, idle⟩, acyclic⟩
  · rintro (stale | ⟨queue, live, breach⟩) ⟨other, can, acyclic⟩
    · cases stale.symm.trans can.live
    · obtain rfl : queue = other := Option.some.inj (live.symm.trans can.live)
      rcases breach with owns | ⟨place, waits⟩ | ring
      · exact can.foreign owns
      · rw [can.idle] at waits
        cases waits
      · exact (ring_join_iff sound.acyclic live).mpr ring acyclic

theorem acquire_fails_iff :
    (¬ ∃ after, tables.acquire id thread = .ok after) ↔
      (Call.acquire id thread).Breaches tables := by
  have edges : (tables.alter id fun queue => { queue with owner := some thread }).ledger.Lends =
      (tables.ledger.install id thread).Lends := by
    rw [ledger_alter]
    exact lends_congr rfl
  rw [acquire_isOk_iff sound, Call.Breaches, edges, ← not_acyclic_iff]
  constructor
  · intro fails
    cases live : tables.queues.get? id with
    | none => exact .inl rfl
    | some queue =>
      refine .inr ⟨queue, rfl, ?_⟩
      by_cases waits : thread ∈ queue.waiting
      · exact .inl waits
      · exact .inr fun acyclic => fails ⟨queue, live, waits, acyclic⟩
  · rintro (stale | ⟨queue, live, breach⟩) ⟨other, live', absent, acyclic⟩
    · cases stale.symm.trans live'
    · obtain rfl : queue = other := Option.some.inj (live.symm.trans live')
      rcases breach with waits | ring
      · exact absent waits
      · exact ring acyclic

/-- One call on sound tables fails exactly when it breaches its contract, as long as there are
stamps. -/
theorem perform_fails_iff (stamps : tables.stamp < greatestStamp) (call : Call) :
    (∃ violation, call.perform tables = .error violation) ↔ call.Breaches tables := by
  cases call with
  | newQueue donation => simp [Call.perform, Call.Breaches]
  | closeQueue id =>
    rw [Call.perform, map_error_iff, closeQueue_isOk_iff sound, Call.Breaches]
    cases tables.queues.get? id <;> simp
  | enqueue id thread =>
    rw [Call.perform, map_error_iff]
    exact enqueue_fails_iff sound stamps
  | acquire id thread =>
    rw [Call.perform, map_error_iff]
    exact acquire_fails_iff sound
  | handOver id =>
    rw [Call.perform, map_error_iff, handOver_isOk_iff sound, Call.Breaches]
    cases tables.queues.get? id <;> simp
  | baseOf thread => simp [Call.perform, Call.Breaches]
  | setBase thread weight =>
    obtain ⟨after, ok, -⟩ := setBase_ok sound thread weight
    simp [Call.perform, Call.Breaches, ok, Except.map]
  | effective thread =>
    obtain ⟨weight, after, ok, -⟩ :=
      effective_ok sound.linked sound.acyclic sound.coherent thread
    simp [Call.perform, Call.Breaches, ok, Except.map]
  | forget thread =>
    obtain ⟨after, ok, -⟩ := forget_ok sound thread
    simp [Call.perform, Call.Breaches, ok, Except.map]

end Calls

/-- In reachable tables nobody lends to itself and every walk ends, and a call fails exactly when
it breaches its contract. -/
theorem fails_iff_breaches (reachable : tables.Reachable)
    (stamps : tables.stamp < greatestStamp) :
    ¬ Ring tables.ledger.Lends ∧
      (∀ thread, ∃ after, tables.invalidate thread = .ok after) ∧
      (∀ thread, ∃ weight after, tables.effective thread = .ok (weight, after)) ∧
      ∀ call : Call,
        (∃ violation, call.perform tables = .error violation) ↔ call.Breaches tables := by
  have sound := reachable.sound
  refine ⟨fun ⟨thread, ring⟩ => sound.acyclic thread ring, invalidate_isOk sound.no_return,
    fun thread => ?_, perform_fails_iff sound stamps⟩
  obtain ⟨weight, after, ok, -⟩ := effective_ok sound.linked sound.acyclic sound.coherent thread
  exact ⟨weight, after, ok⟩

/-- Two threads own a queue each, and one of them waits for the other: the other must not wait
for it. -/
theorem fails_iff_breaches_crossed :
    Arrives
      [.newQueue true, .newQueue true, .acquire (.pack 0 0) ⟨1⟩, .acquire (.pack 0 1) ⟨2⟩,
        .enqueue (.pack 0 1) ⟨1⟩]
      (fresh .priority 0)
      fun tables => tables.stamp < greatestStamp ∧
        (Call.enqueue (.pack 0 0) ⟨2⟩).perform tables = .error (.invalidationCycle ⟨1⟩) ∧
        (Call.enqueue (.pack 0 0) ⟨2⟩).Breaches tables := by
  refine .imp (P := fun tables => tables.stamp < greatestStamp ∧
      (match (Call.enqueue (.pack 0 0) ⟨2⟩).perform tables with
        | .error violation => some violation
        | .ok _ => none) = some (.invalidationCycle ⟨1⟩))
    (by decide +kernel) fun tables arrives ⟨stamps, fails⟩ => ?_
  have failed : (Call.enqueue (.pack 0 0) ⟨2⟩).perform tables =
      .error (.invalidationCycle ⟨1⟩) := by
    split at fails
    · rename_i violation h
      rw [h, Option.some.inj fails]
    · cases fails
  obtain ⟨-, -, -, exact⟩ := fails_iff_breaches ((Reachable.fresh .priority 0).run arrives) stamps
  exact ⟨stamps, failed, (exact _).mp ⟨_, failed⟩⟩

end Tables

end Turnstile
