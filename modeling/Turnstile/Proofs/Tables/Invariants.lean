import Turnstile.Proofs.Tables.Reachable

/-!
# What holds in all reachable tables

* **Weights kept are right** (`effective_from_scratch`): whatever was called before, a weight that
  is kept is the one that base weights and lenders give, and so is every weight that is asked for.
* **Both sides agree** (`two_sides_agree`): what a queue says of its owner and its waiters is what
  their records say, in either direction, for every live queue and every known thread.
-/

namespace Turnstile.Tables

open Ledger

variable {tables : Tables}

/-! ## Weights -/

/-- In sound tables every thread has a weight. -/
theorem Sound.exists_weighs (sound : tables.Sound) (thread : ThreadId) :
    ∃ weight, tables.ledger.Weighs thread weight ∧
      ∃ after, tables.effective thread = .ok (weight, after) := by
  obtain ⟨weight, after, ok, -, weighs⟩ :=
    effective_ok sound.linked sound.acyclic sound.coherent thread
  exact ⟨weight, weighs, after, ok⟩

/-- In reachable tables the weights of all threads are determined by base weights and lenders
alone. They are the weights kept, wherever any is kept, and the weights given to whoever asks. -/
theorem effective_from_scratch (reachable : tables.Reachable) :
    ∃ weight : ThreadId → Int,
      (∀ other, tables.ledger.Weighing other ↔ other = weight) ∧
      (∀ thread kept, (tables.state thread).memo = some kept → kept = weight thread) ∧
      ∀ thread, ∃ after, tables.effective thread = .ok (weight thread, after) := by
  have sound := reachable.sound
  choose weight weighs asked using sound.exists_weighs
  exact ⟨weight, weighing_iff weighs,
    fun thread kept h => (sound.coherent thread kept h).unique (weighs thread), asked⟩

/-- Three threads in a chain: the weight lent from its end is kept at its head. -/
theorem effective_from_scratch_chain :
    Arrives
      [.newQueue true, .newQueue true, .acquire (.pack 0 0) ⟨1⟩, .acquire (.pack 0 1) ⟨2⟩,
        .enqueue (.pack 0 0) ⟨2⟩, .setBase ⟨3⟩ 6, .enqueue (.pack 0 1) ⟨3⟩, .effective ⟨1⟩]
      (fresh .priority 1)
      fun tables => (tables.state ⟨1⟩).memo = some 6 ∧
        ∃ weight, tables.ledger.Weighing weight ∧ weight ⟨1⟩ = 6 := by
  refine .imp (P := fun tables => (tables.state ⟨1⟩).memo = some 6) (by decide +kernel)
    fun tables arrives kept => ?_
  obtain ⟨weight, weighing, right, -⟩ :=
    effective_from_scratch ((Reachable.fresh .priority 1).run arrives)
  exact ⟨kept, weight, (weighing weight).mpr rfl, (right ⟨1⟩ 6 kept).symm⟩

/-! ## The two sides -/

section Sides

variable (sound : tables.Sound) {id : QueueId} {thread : ThreadId} {queue : Queue}
include sound

theorem Sound.owner_iff (live : tables.queues.get? id = some queue) :
    queue.owner = some thread ↔
      tables.knows thread = true ∧ id ∈ (tables.state thread).owned := by
  have owns : tables.ledger.owner? id = queue.owner := owner?_of_queue? live
  have sides : id ∈ (tables.state thread).owned ↔ queue.owner = some thread :=
    owns ▸ sound.linked.owned_iff thread id
  rw [← sides]
  exact ⟨fun h => ⟨knows_of_owned (List.ne_nil_of_mem h), h⟩, And.right⟩

theorem Sound.mem_waiting_iff (live : tables.queues.get? id = some queue) :
    thread ∈ queue.waiting ↔
      tables.knows thread = true ∧ (tables.state thread).waitingOn = some id := by
  have waits : tables.ledger.waiters id = queue.waiting := waiters_of_queue? live
  have sides : (tables.state thread).waitingOn = some id ↔ thread ∈ queue.waiting :=
    waits ▸ sound.linked.waitingOn_iff thread id
  rw [← sides]
  refine ⟨fun h => ⟨knows_of_waitingOn fun idle => ?_, h⟩, And.right⟩
  rw [show (tables.state thread).waitingOn = none from idle] at h
  cases h

theorem Sound.live_of_owned (h : id ∈ (tables.state thread).owned) :
    (tables.queues.get? id).isSome = true := by
  have owns := (sound.linked.owned_iff thread id).mp h
  cases live : tables.queues.get? id with
  | none =>
    rw [owner?, show tables.ledger.queue? id = none from live] at owns
    cases owns
  | some queue => rfl

theorem Sound.live_of_waitingOn (h : (tables.state thread).waitingOn = some id) :
    (tables.queues.get? id).isSome = true := by
  have waits := (sound.linked.waitingOn_iff thread id).mp h
  cases live : tables.queues.get? id with
  | none =>
    rw [waiters, show tables.ledger.queue? id = none from live] at waits
    cases waits
  | some queue => rfl

end Sides

/-- In reachable tables queues and records say the same, nobody is named twice, and stamps and
weights are in order. -/
theorem two_sides_agree (reachable : tables.Reachable) :
    (∀ id queue, tables.queues.get? id = some queue →
      (∀ thread, queue.owner = some thread ↔
        tables.knows thread = true ∧ id ∈ (tables.state thread).owned) ∧
      (∀ thread, thread ∈ queue.waiting ↔
        tables.knows thread = true ∧ (tables.state thread).waitingOn = some id) ∧
      queue.waiting.Nodup ∧
      (∀ owner, queue.owner = some owner → owner ∉ queue.waiting) ∧
      queue.waiting.Pairwise (fun earlier later =>
        (tables.state earlier).enqueuedAt < (tables.state later).enqueuedAt) ∧
      (∀ thread ∈ queue.waiting, (tables.state thread).enqueuedAt ≤ tables.stamp) ∧
      queue.policy = tables.policy) ∧
    (∀ thread,
      (tables.state thread).owned.Nodup ∧
      (∀ id ∈ (tables.state thread).owned, (tables.queues.get? id).isSome) ∧
      (∀ id, (tables.state thread).waitingOn = some id → (tables.queues.get? id).isSome) ∧
      tables.policy.contains (tables.state thread).base = true) ∧
    ∀ thread id other queue place,
      tables.queues.get? id = some queue → tables.queues.get? other = some place →
      thread ∈ queue.waiting → thread ∈ place.waiting → id = other := by
  have sound := reachable.sound
  have consistent := sound.consistent
  refine ⟨fun id queue live => ?_, fun thread => ?_, fun thread id other queue place => ?_⟩
  · have owns : tables.ledger.owner? id = queue.owner := owner?_of_queue? live
    have waits : tables.ledger.waiters id = queue.waiting := waiters_of_queue? live
    refine ⟨fun thread => sound.owner_iff live, fun thread => sound.mem_waiting_iff live,
      ?_, ?_, ?_, ?_, consistent.policy_eq live⟩
    · rw [← waits]
      exact consistent.waiters_nodup id
    · rw [← waits, ← owns]
      exact fun owner => consistent.owner_not_waiting id owner
    · rw [← waits]
      exact consistent.increasing id
    · rw [← waits]
      exact consistent.le_stamp id
  · exact ⟨consistent.owned_nodup thread, fun id h => sound.live_of_owned h,
      fun id h => sound.live_of_waitingOn h, consistent.base_legal thread⟩
  · intro live live' here there
    have first := ((sound.mem_waiting_iff live).mp here).2
    have second := ((sound.mem_waiting_iff live').mp there).2
    exact Option.some.inj (first.symm.trans second)

/-- A queue whose slot has been used before, with an owner and two waiters. -/
theorem two_sides_agree_reused :
    Arrives
      [.newQueue true, .acquire (.pack 0 0) ⟨1⟩, .closeQueue (.pack 0 0), .newQueue true,
        .acquire (.pack 1 0) ⟨1⟩, .enqueue (.pack 1 0) ⟨2⟩, .enqueue (.pack 1 0) ⟨3⟩]
      (fresh .lottery 0)
      fun tables =>
        tables.queues.get? (.pack 1 0) = some ⟨.lottery, true, some ⟨1⟩, [⟨2⟩, ⟨3⟩]⟩ ∧
        .pack 1 0 ∈ (tables.state ⟨1⟩).owned ∧
        (tables.state ⟨2⟩).waitingOn = some (.pack 1 0) ∧
        (tables.state ⟨2⟩).enqueuedAt < (tables.state ⟨3⟩).enqueuedAt := by
  refine .imp (P := fun tables =>
      tables.queues.get? (.pack 1 0) = some ⟨.lottery, true, some ⟨1⟩, [⟨2⟩, ⟨3⟩]⟩)
    (by decide +kernel) fun tables arrives live => ?_
  obtain ⟨queues, -, -⟩ := two_sides_agree ((Reachable.fresh .lottery 0).run arrives)
  obtain ⟨owns, waits, -, -, stamps, -⟩ := queues _ _ live
  refine ⟨live, ((owns ⟨1⟩).mp rfl).2, ((waits ⟨2⟩).mp (by simp)).2, ?_⟩
  simpa using stamps

end Turnstile.Tables
