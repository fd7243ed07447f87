import Turnstile.Proofs.Ledger.Linked

/-!
# Consistent ledgers

Beside the two sides of ownership and waiting, a ledger keeps stamps and weights in order.

* **Stamps** (`Ledger.Stamped`) grow strictly along every list of waiters and never pass the
  stamp of the ledger.
* **Weights** (`Ledger.Legal`): every base weight is one that the policy allows, and every queue
  goes by the policy of the ledger.

A ledger with all of this is `Ledger.Consistent`, and every move keeps it so.
-/

namespace Turnstile.Ledger

/-- Stamps grow along waiters, up to the stamp of the ledger. -/
structure Stamped (ledger : Ledger) : Prop where
  increasing : ∀ id, (ledger.waiters id).Pairwise fun earlier later =>
    (ledger.record earlier).enqueuedAt < (ledger.record later).enqueuedAt
  le_stamp : ∀ id, ∀ thread ∈ ledger.waiters id,
    (ledger.record thread).enqueuedAt ≤ ledger.stamp

/-- Weights and queues go by the policy of the ledger. -/
structure Legal (ledger : Ledger) : Prop where
  base_legal : ∀ thread, ledger.policy.contains (ledger.record thread).base = true
  policy_eq : ∀ {id queue}, ledger.queue? id = some queue → queue.policy = ledger.policy

/-- Everything that a ledger says twice agrees, and everything that it counts is in order. -/
structure Consistent (ledger : Ledger) : Prop extends Linked ledger, Stamped ledger, Legal ledger

variable {ledger after : Ledger} {id : QueueId} {thread : ThreadId} {queue : Queue}

/-! ## Stamps -/

/-- Where waiters only go away and keep their stamps, stamps stay in order. -/
theorem Stamped.of_sublist (stamped : ledger.Stamped) (stamp : ledger.stamp ≤ after.stamp)
    (waiters : ∀ id, (after.waiters id).Sublist (ledger.waiters id))
    (same : ∀ id, ∀ thread ∈ after.waiters id,
      (after.record thread).enqueuedAt = (ledger.record thread).enqueuedAt) :
    after.Stamped where
  increasing id := by
    have := (stamped.increasing id).sublist (waiters id)
    refine this.imp_of_mem fun {a b} ha hb lt => ?_
    rwa [same id a ha, same id b hb]
  le_stamp id thread h := by
    rw [same id thread h]
    exact Nat.le_trans (stamped.le_stamp id thread ((waiters id).subset h)) stamp

/-- A thread that joins gets a stamp beyond all others. -/
theorem Stamped.join (stamped : ledger.Stamped) (linked : ledger.Linked)
    (live : ledger.queue? id = some queue) (idle : (ledger.record thread).waitingOn = none) :
    (ledger.join id thread).Stamped := by
  -- The thread that joins is none of the waiters, so these keep their stamps.
  have other : ∀ place, ∀ u ∈ ledger.waiters place,
      (ledger.join id thread).record u = ledger.record u := by
    intro place u hu
    have hne : thread ≠ u := by
      rintro rfl
      exact linked.notMem_waiters idle place hu
    rw [record_join, if_neg hne]
  have mine : ((ledger.join id thread).record thread).enqueuedAt = ledger.stamp + 1 := by
    rw [record_join, if_pos rfl]
  have old : ∀ place, (ledger.waiters place).Pairwise fun earlier later =>
      ((ledger.join id thread).record earlier).enqueuedAt <
        ((ledger.join id thread).record later).enqueuedAt := by
    intro place
    refine (stamped.increasing place).imp_of_mem fun {a b} ha hb lt => ?_
    rwa [other place a ha, other place b hb]
  have bound : ∀ place, ∀ u ∈ ledger.waiters place,
      ((ledger.join id thread).record u).enqueuedAt ≤ ledger.stamp := by
    intro place u hu
    rw [other place u hu]
    exact stamped.le_stamp place u hu
  constructor
  · intro place
    rw [waiters_join _ _ _ _ live]
    by_cases h : place = id
    · rw [if_pos h]
      refine List.pairwise_append.mpr ⟨old id, List.pairwise_singleton _ _, ?_⟩
      intro a ha b hb
      rw [List.mem_singleton.mp hb, mine]
      exact Nat.lt_succ_of_le (bound id a ha)
    · rw [if_neg h]
      exact old place
  · intro place u hu
    show _ ≤ ledger.stamp + 1
    rw [waiters_join _ _ _ _ live] at hu
    by_cases h : place = id
    · rw [if_pos h] at hu
      rcases List.mem_append.mp hu with hu | hu
      · exact Nat.le_succ_of_le (bound id u hu)
      · rw [List.mem_singleton.mp hu, mine]
    · rw [if_neg h] at hu
      exact Nat.le_succ_of_le (bound place u hu)

/-! ## Weights -/

/-- Where queues keep their policies and base weights stay legal, a ledger stays legal. -/
theorem Legal.of_queues (legal : ledger.Legal) (policy : after.policy = ledger.policy)
    (queues : ∀ id queue, after.queue? id = some queue →
      queue.policy = ledger.policy ∨ ∃ old, ledger.queue? id = some old ∧
        queue.policy = old.policy)
    (bases : ∀ thread, ledger.policy.contains (after.record thread).base = true) :
    after.Legal where
  base_legal thread := by
    rw [policy]
    exact bases thread
  policy_eq {id queue} h := by
    rw [policy]
    rcases queues id queue h with same | ⟨old, live, same⟩
    · exact same
    · rw [same, legal.policy_eq live]

/-- A change of one queue and of records that leaves policies and base weights alone. -/
theorem Legal.edit (legal : ledger.Legal) (id : QueueId) {f : Queue → Queue}
    {record : ThreadId → ThreadState} (same : ∀ queue, (f queue).policy = queue.policy)
    (bases : ∀ thread, (record thread).base = (ledger.record thread).base) :
    Legal { ledger.alter id f with record } := by
  refine legal.of_queues rfl (fun place found h => .inr ?_) (fun thread => ?_)
  · by_cases hp : place = id
    · obtain ⟨queue, live, rfl⟩ : ∃ queue, ledger.queue? id = some queue ∧ f queue = found := by
        simpa [Ledger.alter, hp] using h
      exact ⟨queue, by rw [hp, live], same queue⟩
    · exact ⟨found, by simpa [Ledger.alter, hp] using h, rfl⟩
  · show ledger.policy.contains (record thread).base = true
    rw [bases]
    exact legal.base_legal thread

/-! ## Moves keep ledgers consistent -/

theorem Consistent.of_bare (consistent : ledger.Consistent) (h : after.bare = ledger.bare) :
    after.Consistent := by
  have waiters : ∀ id, after.waiters id = ledger.waiters id := by
    simp [waiters, queue?_of_bare h]
  refine ⟨consistent.toLinked.of_bare h,
    consistent.toStamped.of_sublist (stamp_of_bare h).ge
      (fun id => (waiters id) ▸ List.Sublist.refl _)
        (fun _ thread _ => enqueuedAt_of_bare h thread),
    consistent.toLegal.of_queues (policy_of_bare h) (fun id queue live => .inr ⟨queue, ?_, rfl⟩)
      (fun thread => ?_)⟩
  · rwa [← queue?_of_bare h]
  · rw [base_of_bare h]
    exact consistent.base_legal thread

namespace Consistent

variable (consistent : ledger.Consistent)
include consistent

theorem vacate (id : QueueId) : (ledger.vacate id).Consistent where
  toLinked := consistent.toLinked.vacate id
  toStamped := consistent.toStamped.of_sublist (Nat.le_refl _)
    (fun place => by simp) (fun _ _ _ => rfl)
  toLegal := consistent.toLegal.edit id (fun _ => rfl) (fun _ => rfl)

theorem install (live : ledger.queue? id = some queue) (absent : thread ∉ queue.waiting) :
    (ledger.install id thread).Consistent where
  toLinked := consistent.toLinked.install live absent
  toStamped := by
    refine consistent.toStamped.of_sublist (Nat.le_refl _)
      (fun place => by simp) (fun _ u _ => ?_)
    rw [record_install]
    split
    · exact ThreadState.enqueuedAt_attach id _
    · rfl
  toLegal := by
    refine consistent.toLegal.edit id (fun _ => rfl) (fun u => ?_)
    split
    · exact ThreadState.base_attach id _
    · rfl

theorem place (free : ledger.queue? id = none) (donation : Bool) :
    (ledger.place id (.fresh ledger.policy donation)).Consistent where
  toLinked := consistent.toLinked.place free rfl rfl
  toStamped := by
    refine consistent.toStamped.of_sublist (Nat.le_refl _) (fun other => ?_) (fun _ _ _ => rfl)
    rw [waiters_place]
    split
    · exact List.nil_sublist _
    · exact List.Sublist.refl _
  toLegal := by
    refine consistent.toLegal.of_queues rfl (fun other found h => ?_) consistent.base_legal
    by_cases ho : other = id
    · left
      obtain rfl : Queue.fresh ledger.policy donation = found := by
        simpa [Ledger.place, ho] using h
      rfl
    · exact .inr ⟨found, by simpa [Ledger.place, ho] using h, rfl⟩

theorem close (nobody : ledger.waiters id = []) : (ledger.close id).Consistent where
  toLinked := consistent.toLinked.close nobody
  toStamped := by
    refine consistent.toStamped.of_sublist (Nat.le_refl _) (fun other => ?_) (fun _ _ _ => rfl)
    rw [waiters_close]
    split
    · exact List.nil_sublist _
    · exact List.Sublist.refl _
  toLegal := by
    refine consistent.toLegal.of_queues rfl (fun other found h => .inr ?_) consistent.base_legal
    by_cases ho : other = id
    · simp [Ledger.close, ho] at h
    · exact ⟨found, by simpa [Ledger.close, ho] using h, rfl⟩

theorem join (live : ledger.queue? id = some queue) (foreign : queue.owner ≠ some thread)
    (idle : (ledger.record thread).waitingOn = none) : (ledger.join id thread).Consistent where
  toLinked := consistent.toLinked.join live foreign idle
  toStamped := consistent.toStamped.join consistent.toLinked live idle
  toLegal := by
    have legal : Legal { ledger with stamp := ledger.stamp + 1 } :=
      ⟨consistent.base_legal, consistent.policy_eq⟩
    refine legal.edit id (fun _ => rfl) (fun u => ?_)
    show (if thread = u then _ else _ : ThreadState).base = _
    split <;> rfl

theorem withdraw (waits : thread ∈ ledger.waiters id) :
    (ledger.withdraw id thread).Consistent where
  toLinked := consistent.toLinked.withdraw waits
  toStamped := by
    refine consistent.toStamped.of_sublist (Nat.le_refl _) (fun place => ?_) (fun _ u _ => ?_)
    · rw [waiters_withdraw]
      split
      · rename_i h
        exact h ▸ List.erase_sublist
      · exact List.Sublist.refl _
    · rw [record_withdraw]
      split <;> rfl
  toLegal := by
    refine consistent.toLegal.edit id (fun _ => rfl) (fun u => ?_)
    split <;> rfl

theorem dismiss (thread : ThreadId) : (ledger.dismiss thread).Consistent where
  toLinked := consistent.toLinked.dismiss thread
  toStamped := by
    refine consistent.toStamped.of_sublist (Nat.le_refl _) (fun place => ?_) (fun place u hu => ?_)
    · rw [waiters_dismiss]
      exact List.filter_sublist
    · rw [waiters_dismiss] at hu
      have hne : u ≠ thread := by simpa using (List.mem_filter.mp hu).2
      rw [record_dismiss, if_neg (Ne.symm hne)]
  toLegal := by
    refine consistent.toLegal.of_queues rfl (fun place found h => .inr ?_) (fun u => ?_)
    · obtain ⟨queue, live, rfl⟩ := Option.map_eq_some_iff.mp h
      exact ⟨queue, live, rfl⟩
    · rw [record_dismiss]
      split
      · exact ledger.policy.contains_defaultWeight
      · exact consistent.base_legal u

/-- A change of weight keeps a ledger consistent if the new weight is legal. -/
theorem weigh {weight : Int} (legal : ledger.policy.contains weight = true) :
    (ledger.write thread fun state => { state with base := weight }).Consistent where
  toLinked := consistent.toLinked.weigh weight
  toStamped := by
    refine consistent.toStamped.of_sublist (Nat.le_refl _) (fun _ => List.Sublist.refl _)
      (fun _ u _ => ?_)
    simp only [write]
    split <;> rfl
  toLegal := by
    refine consistent.toLegal.of_queues rfl (fun id queue h => .inr ⟨queue, h, rfl⟩) (fun u => ?_)
    simp only [write]
    split
    · exact legal
    · exact consistent.base_legal u

end Consistent

end Turnstile.Ledger
