import Turnstile.Proofs.Ledger.Together
import Turnstile.Proofs.Tables.Reachable

/-!
# The closed form of donation

In reachable tables the effective weight of a thread is what the thread and all who lend to it,
directly or through others, weigh together (`effective_closed_form`). Everything else about
effective weights follows:

* they lie between the thread's own weight and the greatest legal one, are no less than the
  weights of their donors, and are the thread's own where nobody lends;
* they do not depend on the order in which queues are owned and waiters are listed. Tables that
  differ in nothing else are **rearranged** (`Tables.Rearranged`), and give the same weights even
  if some of the weights kept have been forgotten.
-/

namespace Turnstile

open Relation

/-- The same queue with its waiters in another order. -/
structure Queue.Rearranged (queue other : Queue) : Prop where
  policy : other.policy = queue.policy
  donation : other.donation = queue.donation
  owner : other.owner = queue.owner
  waiting : other.waiting.Perm queue.waiting

/-- The same record with its queues in another order. -/
structure ThreadState.Rearranged (state other : ThreadState) : Prop where
  base : other.base = state.base
  memo : other.memo = state.memo ∨ other.memo = none
  owned : other.owned.Perm state.owned
  waitingOn : other.waitingOn = state.waitingOn

namespace Tables

open Ledger

/-- The same tables with owned queues and waiters in another order. -/
structure Rearranged (tables other : Tables) : Prop where
  policy : other.policy = tables.policy
  queues : ∀ id,
    Option.Rel Queue.Rearranged (tables.queues.get? id) (other.queues.get? id)
  records : ∀ thread, (tables.state thread).Rearranged (other.state thread)

variable {tables other : Tables}

/-! ## Weights without weights kept -/

/-- Without a ring every thread has a weight, whatever is kept. -/
theorem exists_weighs (linked : tables.ledger.Linked) (acyclic : tables.ledger.Acyclic)
    (thread : ThreadId) : ∃ weight, tables.ledger.Weighs thread weight := by
  have same : tables.bare.ledger.bare = tables.ledger.bare := by
    rw [ledger_bare]
    rfl
  have coherent : tables.bare.ledger.Coherent := by
    intro other weight kept
    rw [ledger_bare] at kept
    cases kept
  obtain ⟨weight, -, -, -, weighs⟩ :=
    effective_ok (linked.of_bare same) (acyclic.congr rfl) coherent thread
  exact ⟨weight, weighs.of_bare same.symm⟩

/-! ## Rearranged tables -/

namespace Rearranged

variable (h : Rearranged tables other)
include h

theorem queue (id : QueueId) :
    tables.ledger.queue? id = none ∧ other.ledger.queue? id = none ∨
      ∃ queue place, tables.ledger.queue? id = some queue ∧ other.ledger.queue? id = some place ∧
        queue.Rearranged place := by
  have same : Option.Rel Queue.Rearranged (tables.ledger.queue? id) (other.ledger.queue? id) :=
    h.queues id
  generalize tables.ledger.queue? id = found at same
  generalize other.ledger.queue? id = found' at same
  cases same with
  | none => exact .inl ⟨rfl, rfl⟩
  | some same => exact .inr ⟨_, _, rfl, rfl, same⟩

theorem owner? (id : QueueId) : other.ledger.owner? id = tables.ledger.owner? id := by
  rcases h.queue id with ⟨free, free'⟩ | ⟨queue, place, live, live', same⟩
  · simp [Ledger.owner?, free, free']
  · rw [owner?_of_queue? live, owner?_of_queue? live', same.owner]

theorem donates (id : QueueId) : other.ledger.donates id = tables.ledger.donates id := by
  rcases h.queue id with ⟨free, free'⟩ | ⟨queue, place, live, live', same⟩
  · simp [Ledger.donates, free, free']
  · rw [donates_of_queue? live, donates_of_queue? live', same.donation]

theorem waiters (id : QueueId) :
    (other.ledger.waiters id).Perm (tables.ledger.waiters id) := by
  rcases h.queue id with ⟨free, free'⟩ | ⟨queue, place, live, live', same⟩
  · simp [Ledger.waiters, free, free']
  · rw [waiters_of_queue? live, waiters_of_queue? live']
    exact same.waiting

theorem lends : other.ledger.Lends = tables.ledger.Lends := by
  funext a b
  simp only [lends_iff, h.donates, h.owner?, (h.waiters _).mem_iff]

theorem linked (linked : tables.ledger.Linked) : other.ledger.Linked where
  owned_iff thread id := by
    rw [h.owner?, ← linked.owned_iff]
    exact (h.records thread).owned.mem_iff
  waitingOn_iff thread id := by
    rw [(h.waiters id).mem_iff, ← linked.waitingOn_iff,
      show (other.ledger.record thread).waitingOn = (tables.ledger.record thread).waitingOn from
        (h.records thread).waitingOn]
  owned_nodup thread := (h.records thread).owned.nodup_iff.mpr (linked.owned_nodup thread)
  waiters_nodup id := (h.waiters id).nodup_iff.mpr (linked.waiters_nodup id)
  owner_not_waiting id thread := by
    rw [h.owner?, (h.waiters id).mem_iff]
    exact linked.owner_not_waiting id thread

theorem legal (legal : tables.ledger.Legal) : other.ledger.Legal where
  base_legal thread := by
    have base : (other.ledger.record thread).base = (tables.ledger.record thread).base :=
      (h.records thread).base
    have policy : other.ledger.policy = tables.ledger.policy := h.policy
    rw [base, policy]
    exact legal.base_legal thread
  policy_eq {id place} live' := by
    rcases h.queue id with ⟨-, free'⟩ | ⟨queue, found, live, found', same⟩
    · rw [free'] at live'
      cases live'
    · rw [live'] at found'
      cases found'
      rw [same.policy, legal.policy_eq live]
      exact h.policy.symm

theorem acyclic (acyclic : tables.ledger.Acyclic) : other.ledger.Acyclic := by
  rw [Acyclic, h.lends]
  exact acyclic

/-- A thread weighs the same, because it has the same donors. -/
theorem weighs (sound : tables.Sound) {thread : ThreadId} {weight : Int}
    (weighs : tables.ledger.Weighs thread weight) : other.ledger.Weighs thread weight := by
  have linked' := h.linked sound.linked
  obtain ⟨weight', weighs'⟩ := exists_weighs linked' (h.acyclic sound.acyclic) thread
  obtain ⟨donors, mem, together⟩ :=
    sound.linked.weighs_together sound.consistent.toLegal sound.acyclic weighs
  obtain ⟨donors', mem', together'⟩ :=
    linked'.weighs_together (h.legal sound.consistent.toLegal) (h.acyclic sound.acyclic) weighs'
  have same : donors' = donors := by
    ext donor
    rw [mem, mem', h.lends]
  have bases : (fun donor => (other.ledger.record donor).base) =
      fun donor => (tables.ledger.record donor).base :=
    funext fun donor => (h.records donor).base
  rw [same, bases, show other.ledger.policy = tables.ledger.policy from h.policy] at together'
  rw [together.unique together']
  exact weighs'

theorem coherent (sound : tables.Sound) : other.ledger.Coherent := by
  intro thread weight kept
  rcases (h.records thread).memo with same | forgotten
  · exact h.weighs sound (sound.coherent thread weight (same.symm.trans kept))
  · rw [show (other.ledger.record thread).memo = none from forgotten] at kept
    cases kept

theorem effective (sound : tables.Sound) {thread : ThreadId} {weight : Int}
    (weighs : tables.ledger.Weighs thread weight) :
    ∃ after, other.effective thread = .ok (weight, after) := by
  obtain ⟨weight', after, ok, -, weighs'⟩ := effective_ok (h.linked sound.linked)
    (h.acyclic sound.acyclic) (h.coherent sound) thread
  rw [weighs'.unique (h.weighs sound weighs)] at ok
  exact ⟨after, ok⟩

end Rearranged

/-! ## The closed form -/

/-- In sound tables the weight of a thread is what its donors weigh together. -/
theorem Sound.donors_together (sound : tables.Sound) (thread : ThreadId) :
    ∃ (donors : Finset ThreadId) (weight : Int),
      (∀ donor, donor ∈ donors ↔ ReflTransGen tables.ledger.Lends donor thread) ∧
      (∃ after, tables.effective thread = .ok (weight, after)) ∧
      tables.ledger.Weighs thread weight ∧
      tables.policy.Together (fun donor => (tables.state donor).base) donors weight := by
  obtain ⟨weight, after, ok, -, weighs⟩ :=
    effective_ok sound.linked sound.acyclic sound.coherent thread
  obtain ⟨donors, mem, together⟩ :=
    sound.linked.weighs_together sound.consistent.toLegal sound.acyclic weighs
  exact ⟨donors, weight, mem, ⟨after, ok⟩, weighs, together⟩

/-- A thread that nobody lends to is its only donor. -/
theorem donors_of_alone {donors : Finset ThreadId} {thread : ThreadId}
    (mem : ∀ donor, donor ∈ donors ↔ ReflTransGen tables.ledger.Lends donor thread)
    (alone : ∀ lender, ¬ tables.ledger.Lends lender thread) : donors = {thread} := by
  ext donor
  rw [mem, Finset.mem_singleton]
  constructor
  · intro path
    rcases ReflTransGen.cases_tail path with rfl | ⟨last, -, lends⟩
    · rfl
    · exact absurd lends (alone last)
  · rintro rfl
    exact .refl

/-- In reachable tables the effective weight of a thread is the greatest base weight among its
donors, or the sum of their base weights, and the rest follows. -/
theorem effective_closed_form (reachable : tables.Reachable) (thread : ThreadId) :
    ∃ (donors : Finset ThreadId) (weight : Int),
      (∀ donor, donor ∈ donors ↔
        donor = thread ∨ TransGen tables.ledger.Lends donor thread) ∧
      (∃ after, tables.effective thread = .ok (weight, after)) ∧
      (tables.policy = .priority →
        IsGreatest ((fun donor => (tables.state donor).base) '' donors) weight) ∧
      (tables.policy = .lottery →
        weight = min Weight.greatest (∑ donor ∈ donors, (tables.state donor).base)) ∧
      (tables.state thread).base ≤ weight ∧ weight ≤ tables.policy.maximum ∧
      (∀ donor ∈ donors, ∃ lent after,
        tables.effective donor = .ok (lent, after) ∧ lent ≤ weight) ∧
      ((∀ lender, ¬ tables.ledger.Lends lender thread) →
        weight = (tables.state thread).base) ∧
      ∀ other, Rearranged tables other → ∃ after, other.effective thread = .ok (weight, after) := by
  have sound := reachable.sound
  have legal := sound.consistent.base_legal
  obtain ⟨donors, weight, mem, ok, weighs, together⟩ := sound.donors_together thread
  refine ⟨donors, weight, fun donor => ?_, ok, fun h => ?_, fun h => ?_, ?_, ?_, ?_, ?_, ?_⟩
  · rw [mem, reflTransGen_iff_eq_or_transGen, eq_comm]
  · rw [h] at together
    exact together
  · rw [h] at together
    exact together
  · exact together.base_le legal ((mem thread).mpr .refl)
  · exact together.le_maximum legal
  · intro donor hd
    obtain ⟨others, lent, mem', ⟨after, ok'⟩, -, together'⟩ := sound.donors_together donor
    refine ⟨lent, after, ok', together'.mono legal (fun other ho => ?_) together⟩
    exact (mem other).mpr (((mem' other).mp ho).trans ((mem donor).mp hd))
  · intro alone
    rw [donors_of_alone mem alone] at together
    exact together.unique (Policy.together_singleton legal thread)
  · exact fun other rearranged => rearranged.effective sound weighs

/-- Tickets along a chain of three threads, two of them behind one queue. -/
theorem effective_closed_form_tickets :
    Arrives
      [.newQueue true, .newQueue true, .acquire (.pack 0 0) ⟨1⟩, .acquire (.pack 0 1) ⟨2⟩,
        .enqueue (.pack 0 0) ⟨2⟩, .setBase ⟨3⟩ 5, .enqueue (.pack 0 1) ⟨3⟩,
        .setBase ⟨4⟩ 2147483647, .enqueue (.pack 0 1) ⟨4⟩]
      (fresh .lottery 0)
      fun tables => ∃ donors : Finset ThreadId,
        (∀ donor, donor ∈ donors ↔ donor = ⟨1⟩ ∨ TransGen tables.ledger.Lends donor ⟨1⟩) ∧
        min Weight.greatest (∑ donor ∈ donors, (tables.state donor).base) = 2147483647 := by
  refine .imp (P := fun tables => tables.policy = .lottery ∧
      (tables.effective ⟨1⟩).toOption.map (·.1) = some 2147483647)
    (by decide +kernel) fun tables arrives ⟨policy, weight⟩ => ?_
  obtain ⟨donors, found, mem, ⟨after, ok⟩, -, sum, -⟩ :=
    effective_closed_form ((Reachable.fresh .lottery 0).run arrives) ⟨1⟩
  rw [ok] at weight
  refine ⟨donors, mem, ?_⟩
  rw [← sum policy]
  exact Option.some.inj weight

end Tables

end Turnstile
