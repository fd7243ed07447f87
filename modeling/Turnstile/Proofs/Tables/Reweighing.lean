import Turnstile.Proofs.Tables.Parting

/-!
# Giving a thread another weight

A thread that is given a weight has a base weight that its policy allows, and that is all that the
tables show of it besides weights kept (`bare_of_setBase`). So everybody has the donors that it
had, and only threads that have the thread itself among their donors can weigh something else.

* **`Policy.Together.mono_base`**: threads of greater base weights weigh no less together.
* **`Sound.reweighed`**: what one thread weighs before and after.
* **`weight_change_local_monotone`**: for all threads at once, whatever weight is asked for.
-/

namespace Turnstile

open Relation

/-- The same threads weigh no less together if none of their base weights is smaller. -/
theorem Policy.Together.mono_base {policy : Policy} {base other : ThreadId → Int}
    {donors : Finset ThreadId} {a b : Int} (h : policy.Together base donors a)
    (ho : policy.Together other donors b) (le : ∀ donor ∈ donors, base donor ≤ other donor) :
    a ≤ b := by
  cases policy with
  | priority =>
    obtain ⟨greatest, donates, rfl⟩ := h.1
    have kept : other greatest ≤ b := ho.2 ⟨greatest, donates, rfl⟩
    exact Int.le_trans (le greatest donates) kept
  | lottery =>
    have ha : a = min Weight.greatest (∑ donor ∈ donors, base donor) := h
    have hb : b = min Weight.greatest (∑ donor ∈ donors, other donor) := ho
    rw [ha, hb]
    exact min_le_min_left _ (Finset.sum_le_sum le)

namespace Tables

open Ledger

variable {tables after : Tables} {thread other : ThreadId} {weight : Int}

/-! ## What shows -/

/-- A thread that is given a weight has that of the legal weights that is nearest, and nothing else
shows. -/
theorem bare_of_setBase (h : tables.setBase thread weight = .ok after) :
    after.bare = (tables.record thread fun state =>
      { state with base := tables.policy.clamp weight }).bare := by
  have h : (if (tables.state thread).base = tables.policy.clamp weight
      then .ok (tables.enrol thread)
      else (tables.record thread fun state =>
        { state with base := tables.policy.clamp weight }).invalidate thread) = .ok after := h
  split at h
  · rename_i already
    cases h
    have written : ({ tables.state thread with base := tables.policy.clamp weight } : ThreadState) =
        tables.state thread := by
      rw [← already]
    cases known : tables.knows thread with
    | true =>
      rw [enrol_of_knows known]
      exact (bare_record_of_knows known (congrArg ThreadState.bare written)).symm
    | false =>
      rw [enrol, if_neg (by simp [known]), record, record, written]
      rfl
  · exact bare_of_invalidate h

section Shown

variable (h : tables.setBase thread weight = .ok after)
include h

theorem state_of_setBase (other : ThreadId) :
    (after.state other).bare = ({ tables.state other with
      base := if other = thread then tables.policy.clamp weight
        else (tables.state other).base } : ThreadState).bare := by
  rw [← state_bare, bare_of_setBase h, state_bare, state_record]
  by_cases same : thread = other
  · rw [if_pos same, if_pos same.symm]
  · rw [if_neg same, if_neg (Ne.symm same)]

theorem base_of_setBase (other : ThreadId) : (after.state other).base =
    if other = thread then tables.policy.clamp weight else (tables.state other).base :=
  (ThreadState.bare_eq_iff.mp (state_of_setBase h other)).1

theorem lends_of_setBase : after.ledger.Lends = tables.ledger.Lends := by
  have queues : after.queues = tables.queues :=
    show after.bare.queues = _ from congrArg (·.queues) (bare_of_setBase h)
  refine lends_congr ?_
  show after.queues.get? = tables.queues.get?
  rw [queues]

end Shown

/-! ## What threads weigh -/

/-- A thread has the donors that it had. It weighs what it did unless the thread that was given a
weight is one of them, and otherwise it has moved, if at all, to the same side. -/
theorem Sound.reweighed (sound : tables.Sound) (sound' : after.Sound)
    (h : tables.setBase thread weight = .ok after) (other : ThreadId) :
    ∃ donors before later, tables.WeighsWith other donors before ∧
      after.WeighsWith other donors later ∧
      (thread ∉ donors → later = before) ∧
      ((tables.state thread).base ≤ tables.policy.clamp weight → before ≤ later) ∧
      (tables.policy.clamp weight ≤ (tables.state thread).base → later ≤ before) := by
  obtain ⟨donors, before, weighs⟩ := sound.weighsWith other
  obtain ⟨donors', later, weighs'⟩ := sound'.weighsWith other
  have same : donors' = donors := by
    ext donor
    rw [weighs'.donor_iff, weighs.donor_iff, lends_of_setBase h]
  subst same
  -- Both weights are made of base weights of the same donors, and one of these at most has moved.
  have policy : after.policy = tables.policy :=
    show after.bare.policy = _ from congrArg (·.policy) (bare_of_setBase h)
  have moved := weighs'.together
  rw [policy] at moved
  refine ⟨donors', before, later, weighs, weighs', fun foreign => ?_, fun up => ?_, fun down => ?_⟩
  · refine moved.unique (weighs.together.congr fun donor donates => ?_)
    have ne : donor ≠ thread := fun same => foreign (same ▸ donates)
    rw [base_of_setBase h, if_neg ne]
  · refine weighs.together.mono_base moved fun donor _ => ?_
    rw [base_of_setBase h]
    split
    · rename_i same
      exact same ▸ up
    · exact Int.le_refl _
  · refine moved.mono_base weighs.together fun donor _ => ?_
    rw [base_of_setBase h]
    split
    · rename_i same
      exact same ▸ down
    · exact Int.le_refl _

/-- In reachable tables a thread can be given any weight: its base weight is then the legal one
that is nearest, and no other base weight, no queue, owner, waiter, stamp or generator has changed.
Threads that it does not lend to, directly or through others, weigh what they did. It and all that
it lends to weigh no less if its base weight has not gone down, and no more if it has not gone
up. -/
theorem weight_change_local_monotone (reachable : tables.Reachable) (thread : ThreadId)
    (weight : Int) :
    ∃ after, tables.setBase thread weight = .ok after ∧
      (after.state thread).base = tables.policy.clamp weight ∧
      (∀ other ≠ thread, (after.state other).base = (tables.state other).base) ∧
      (∀ other, (after.state other).owned = (tables.state other).owned ∧
        (after.state other).waitingOn = (tables.state other).waitingOn ∧
        (after.state other).enqueuedAt = (tables.state other).enqueuedAt) ∧
      (after.policy = tables.policy ∧ after.queues = tables.queues ∧
        after.stamp = tables.stamp ∧ after.generator = tables.generator) ∧
      ∃ before later : ThreadId → Int,
        (∀ other, ∃ now, tables.effective other = .ok (before other, now)) ∧
        (∀ other, ∃ now, after.effective other = .ok (later other, now)) ∧
        (∀ other, ¬ ReflTransGen tables.ledger.Lends thread other →
          later other = before other) ∧
        ∀ other, ReflTransGen tables.ledger.Lends thread other →
          ((tables.state thread).base ≤ tables.policy.clamp weight →
            before other ≤ later other) ∧
          (tables.policy.clamp weight ≤ (tables.state thread).base →
            later other ≤ before other) := by
  have sound := reachable.sound
  obtain ⟨after, ok, sound', -⟩ := setBase_ok sound thread weight
  have shown := bare_of_setBase ok
  have policy : after.bare.policy = _ := congrArg (·.policy) shown
  have queues : after.bare.queues = _ := congrArg (·.queues) shown
  have stamp : after.bare.stamp = _ := congrArg (·.stamp) shown
  have generator : after.bare.generator = _ := congrArg (·.generator) shown
  choose donors before later weighs weighs' unchanged up down using sound.reweighed sound' ok
  refine ⟨after, ok, ?_, fun other ne => ?_, fun other => ?_, ⟨policy, queues, stamp, generator⟩,
    before, later, fun other => (weighs other).effective, fun other => (weighs' other).effective,
    fun other apart => ?_, fun other _ => ⟨up other, down other⟩⟩
  · rw [base_of_setBase ok, if_pos rfl]
  · rw [base_of_setBase ok, if_neg ne]
  · obtain ⟨-, owned, enqueuedAt, waitingOn⟩ :=
      ThreadState.bare_eq_iff.mp (state_of_setBase ok other)
    exact ⟨owned, waitingOn, enqueuedAt⟩
  · exact unchanged other fun donates => apart (((weighs other).donor_iff thread).mp donates)

/-- The middle of a chain of three threads is given more than the policy allows: the head of the
chain weighs no less, and the thread at the end weighs the same. -/
theorem weight_change_local_monotone_chain :
    Arrives
      [.newQueue true, .newQueue true, .acquire (.pack 0 0) ⟨1⟩, .acquire (.pack 0 1) ⟨2⟩,
        .enqueue (.pack 0 0) ⟨2⟩, .setBase ⟨3⟩ 5, .enqueue (.pack 0 1) ⟨3⟩, .effective ⟨1⟩]
      (fresh .priority 1)
      fun tables => ∃ after, tables.setBase ⟨2⟩ 9 = .ok after ∧ (after.state ⟨2⟩).base = 7 ∧
        ∃ before later : ThreadId → Int,
          (∃ now, after.effective ⟨1⟩ = .ok (later ⟨1⟩, now)) ∧ before ⟨1⟩ ≤ later ⟨1⟩ ∧
          later ⟨3⟩ = before ⟨3⟩ ∧ (∃ now, tables.effective ⟨3⟩ = .ok (before ⟨3⟩, now)) := by
  refine .imp (P := fun tables => tables.policy = .priority ∧ (tables.state ⟨2⟩).base = 1 ∧
      tables.ledger.donee? ⟨2⟩ = some ⟨1⟩ ∧ tables.ledger.donee? ⟨1⟩ = none)
    (by decide +kernel) fun tables arrives ⟨policy, base, lends, last⟩ => ?_
  have reachable := (Reachable.fresh .priority 1).run arrives
  obtain ⟨after, ok, given, -, -, -, before, later, was, is, apart, reached⟩ :=
    weight_change_local_monotone reachable ⟨2⟩ 9
  rw [policy] at given reached
  have up := (reached ⟨1⟩ (.single (reachable.sound.linked.hop_iff.mp lends))).1
    (by rw [base]; decide)
  refine ⟨after, ok, given, before, later, is ⟨1⟩, up, apart ⟨3⟩ fun path => ?_, was ⟨3⟩⟩
  -- from the middle of the chain one comes to its head, and no further
  rw [← reachable.sound.linked.hop_eq] at path
  rcases ReflTransGen.cases_head path with same | ⟨next, hop, rest⟩
  · cases same
  · obtain rfl : ⟨1⟩ = next := Option.some.inj (lends.symm.trans hop)
    rcases ReflTransGen.cases_head rest with same | ⟨next, hop, -⟩
    · cases same
    · cases last.symm.trans hop

end Tables

end Turnstile
