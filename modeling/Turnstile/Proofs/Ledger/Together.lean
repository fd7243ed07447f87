import Mathlib.Algebra.Order.BigOperators.Group.Finset
import Mathlib.Algebra.Order.Group.Int
import Mathlib.Data.List.Nodup
import Turnstile.Proofs.Ledger.Weighing

/-!
# What a set of threads weighs together

Lent weights are added one by one, in nested sums that saturate at every level. What comes out
depends on the set of donors only: under priority it is the greatest of their base weights, and
under lottery the sum of their base weights, cut off at the greatest weight there is.

* **`Policy.Together`** says what a set of threads weighs together, and `Together.donate` that
  adding the weights of two disjoint sets gives the weight of their union. Saturating early does
  not matter because no base weight is negative.
* **Forests.** Two different lenders of one thread have no donor in common
  (`Linked.donors_disjoint`): lending never parts, so from a common donor one of the two would
  lead to the other and on to itself.
* **`Linked.weighs_together`**: a thread weighs what its donors weigh together.
-/

namespace Turnstile

open Relation

namespace Policy

/-- The threads weigh `weight` together. -/
def Together (policy : Policy) (base : ThreadId → Int) (donors : Finset ThreadId)
    (weight : Int) : Prop :=
  match policy with
  | priority => IsGreatest (base '' donors) weight
  | lottery => weight = min Weight.greatest (∑ donor ∈ donors, base donor)

section Laws

variable {policy : Policy} {base : ThreadId → Int} {donors others : Finset ThreadId}
  {thread : ThreadId} {a b : Int} (legal : ∀ thread, policy.contains (base thread) = true)

theorem Together.unique (h : policy.Together base donors a) (ho : policy.Together base donors b) :
    a = b := by
  cases policy with
  | priority => exact IsGreatest.unique h ho
  | lottery => exact Eq.trans h (Eq.symm ho)

include legal

theorem base_nonneg (thread : ThreadId) : 0 ≤ base thread := by
  have := (contains_iff.mp (legal thread)).1
  cases policy <;> simp only [minimum] at this <;> omega

theorem sum_nonneg (donors : Finset ThreadId) : 0 ≤ ∑ donor ∈ donors, base donor :=
  Finset.sum_nonneg fun donor _ => base_nonneg legal donor

theorem together_singleton (thread : ThreadId) :
    policy.Together base {thread} (base thread) := by
  cases policy with
  | priority =>
    refine ⟨⟨thread, by simp, rfl⟩, ?_⟩
    rintro _ ⟨other, hm, rfl⟩
    obtain rfl : other = thread := by simpa using hm
    exact le_refl _
  | lottery =>
    have := (contains_iff.mp (legal thread)).2
    rw [Together, Finset.sum_singleton]
    exact (min_eq_right this).symm

/-- Adding the weight of other threads gives the weight of all of them. -/
theorem Together.donate (disjoint : Disjoint donors others) (h : policy.Together base donors a)
    (ho : policy.Together base others b) :
    policy.Together base (donors ∪ others) (policy.donate a b) := by
  cases policy with
  | priority =>
    show IsGreatest (base '' ↑(donors ∪ others)) (max a b)
    rw [Finset.coe_union, Set.image_union]
    exact IsGreatest.union h ho
  | lottery =>
    have hd := sum_nonneg legal donors
    have hd' := sum_nonneg legal others
    have ha : a = min Weight.greatest (∑ donor ∈ donors, base donor) := h
    have hb : b = min Weight.greatest (∑ donor ∈ others, base donor) := ho
    show min (Weight.saturatingAdd a b) Weight.greatest = _
    rw [Finset.sum_union disjoint, ha, hb]
    unfold Weight.saturatingAdd Weight.least Weight.greatest
    omega

theorem Together.base_le (h : policy.Together base donors a) (hm : thread ∈ donors) :
    base thread ≤ a := by
  cases policy with
  | priority => exact h.2 ⟨thread, hm, rfl⟩
  | lottery =>
    have alone := Finset.single_le_sum (fun donor _ => base_nonneg legal donor) hm
    have bound := (contains_iff.mp (legal thread)).2
    have ha : a = min Weight.greatest (∑ donor ∈ donors, base donor) := h
    rw [ha]
    exact le_min bound alone

theorem Together.le_maximum (h : policy.Together base donors a) : a ≤ policy.maximum := by
  cases policy with
  | priority =>
    obtain ⟨thread, -, rfl⟩ := h.1
    exact (contains_iff.mp (legal thread)).2
  | lottery =>
    have ha : a = min Weight.greatest (∑ donor ∈ donors, base donor) := h
    rw [ha]
    exact min_le_left _ _

/-- More threads weigh no less. -/
theorem Together.mono (subset : donors ⊆ others) (h : policy.Together base donors a)
    (ho : policy.Together base others b) : a ≤ b := by
  cases policy with
  | priority => exact IsGreatest.mono h ho (Set.image_mono (Finset.coe_subset.mpr subset))
  | lottery =>
    have sums := Finset.sum_le_sum_of_subset_of_nonneg subset
      fun donor _ _ => base_nonneg legal donor
    have ha : a = min Weight.greatest (∑ donor ∈ donors, base donor) := h
    have hb : b = min Weight.greatest (∑ donor ∈ others, base donor) := ho
    rw [ha, hb]
    exact min_le_min_left _ sums

end Laws

end Policy

namespace Ledger

variable {ledger : Ledger}

/-! ## Forests -/

theorem map_snd_lendersAt (ledger : Ledger) (id : QueueId) :
    ((ledger.lendersAt id).map Prod.snd).Sublist (ledger.waiters id) := by
  unfold lendersAt waiters
  cases ledger.queue? id with
  | none => exact List.Sublist.refl _
  | some queue =>
    by_cases donation : queue.donation = true <;> simp [donation, Function.comp_def]

/-- Nobody lends to a thread through two queues. -/
theorem Linked.lenders_nodup (linked : ledger.Linked) (thread : ThreadId) :
    ((ledger.lenders thread).map Prod.snd).Nodup := by
  rw [lenders, List.map_flatMap, List.nodup_flatMap]
  refine ⟨fun id _ => (linked.waiters_nodup id).sublist (map_snd_lendersAt ledger id), ?_⟩
  refine (linked.owned_nodup thread).imp fun {id other} hne => ?_
  intro lender here there
  have first := (linked.waitingOn_iff lender id).mpr ((map_snd_lendersAt ledger id).subset here)
  have second :=
    (linked.waitingOn_iff lender other).mpr ((map_snd_lendersAt ledger other).subset there)
  exact hne (Option.some.inj (first.symm.trans second))

theorem Legal.policy_of_mem_lenders (legal : ledger.Legal) {thread : ThreadId}
    {lender : Policy × ThreadId} (h : lender ∈ ledger.lenders thread) :
    lender.1 = ledger.policy := by
  obtain ⟨id, -, hl⟩ := List.mem_flatMap.mp h
  obtain ⟨queue, live, -, -, same⟩ := mem_lendersAt.mp hl
  rw [same, legal.policy_eq live]

theorem Linked.lends_rightUnique (linked : ledger.Linked) : Relator.RightUnique ledger.Lends := by
  rw [← linked.hop_eq]
  exact hop_rightUnique ledger

/-- A donor of one lender is no donor of another lender of the same thread. -/
theorem Linked.donors_disjoint (linked : ledger.Linked) (acyclic : ledger.Acyclic)
    {a b thread donor : ThreadId} (ha : ledger.Lends a thread) (hb : ledger.Lends b thread)
    (hne : a ≠ b) (hda : ReflTransGen ledger.Lends donor a) :
    ¬ ReflTransGen ledger.Lends donor b := by
  -- whichever of the two comes first lends to the thread, and so to the other
  have ahead : ∀ {a b}, ledger.Lends a thread → ledger.Lends b thread → a ≠ b →
      ¬ ReflTransGen ledger.Lends a b := by
    intro a b ha hb hne path
    rcases ReflTransGen.cases_head path with rfl | ⟨next, lends, rest⟩
    · exact hne rfl
    · obtain rfl := linked.lends_rightUnique lends ha
      exact acyclic next (TransGen.tail' rest hb)
  intro hdb
  rcases ReflTransGen.total_of_right_unique linked.lends_rightUnique hda hdb with h | h
  · exact ahead ha hb hne h
  · exact ahead hb ha (Ne.symm hne) h

/-- The donors of a thread are the thread and the donors of its lenders. -/
theorem Linked.donor_iff (linked : ledger.Linked) {donor thread : ThreadId} :
    ReflTransGen ledger.Lends donor thread ↔ donor = thread ∨
      ∃ lender ∈ ledger.lenders thread, ReflTransGen ledger.Lends donor lender.2 := by
  constructor
  · intro path
    rcases ReflTransGen.cases_tail path with rfl | ⟨last, path, lends⟩
    · exact .inl rfl
    · obtain ⟨policy, hl⟩ := linked.lends_iff_mem_lenders.mp lends
      exact .inr ⟨(policy, last), hl, path⟩
  · rintro (rfl | ⟨lender, hl, path⟩)
    · exact .refl
    · exact path.tail (linked.lends_iff_mem_lenders.mpr ⟨lender.1, hl⟩)

/-- Nobody is a donor of its own lenders. -/
theorem Acyclic.not_donor_of_lender (acyclic : ledger.Acyclic) {lender thread : ThreadId}
    (lends : ledger.Lends lender thread) : ¬ ReflTransGen ledger.Lends thread lender :=
  fun path => acyclic thread (TransGen.tail' path lends)

/-! ## The closed form -/

section ClosedForm

variable (linked : ledger.Linked) (legal : ledger.Legal) (acyclic : ledger.Acyclic)
include linked legal acyclic

/-- What is pooled so far is what the donors `before` weigh together. Each lender brings its own
donors in, and none of these was there before. -/
theorem Linked.pools_together {pooled : List (Policy × ThreadId)} {total result : Int}
    (h : ledger.Pools pooled total result) {thread : ThreadId}
    (lends : ∀ lender ∈ pooled, ledger.Lends lender.2 thread)
    (policies : ∀ lender ∈ pooled, lender.1 = ledger.policy)
    (distinct : (pooled.map Prod.snd).Nodup) {before : Finset ThreadId}
    (foreign : ∀ donor ∈ before, ∀ lender ∈ pooled, ¬ ReflTransGen ledger.Lends donor lender.2)
    (together : ledger.policy.Together (fun donor => (ledger.record donor).base) before total) :
    ∃ donors : Finset ThreadId,
      (∀ donor, donor ∈ donors ↔
        donor ∈ before ∨ ∃ lender ∈ pooled, ReflTransGen ledger.Lends donor lender.2) ∧
      ledger.policy.Together (fun donor => (ledger.record donor).base) donors result := by
  induction h generalizing thread before with
  | nil => exact ⟨before, by simp, together⟩
  | @cons policy lender rest total donated result _ _ ihLender ihRest =>
    have lent : ledger.Lends lender thread := lends (policy, lender) List.mem_cons_self
    have own : ∀ other ∈ ledger.lenders lender, ledger.Lends other.2 lender := fun other ho =>
      linked.lends_iff_mem_lenders.mpr ⟨other.1, ho⟩
    obtain ⟨absent, distinct⟩ := List.nodup_cons.mp distinct
    -- the lender brings itself and the donors of its own lenders
    obtain ⟨donors, mem, weight⟩ := ihLender own
      (fun other ho => legal.policy_of_mem_lenders ho) (linked.lenders_nodup lender)
      (fun donor hd other ho => by
        obtain rfl := Finset.mem_singleton.mp hd
        exact acyclic.not_donor_of_lender (own other ho))
      (Policy.together_singleton legal.base_legal lender)
    have reach : ∀ donor, donor ∈ donors ↔ ReflTransGen ledger.Lends donor lender := by
      intro donor
      rw [mem, Finset.mem_singleton, linked.donor_iff]
    have disjoint : Disjoint before donors := Finset.disjoint_left.mpr fun donor hd ho =>
      foreign donor hd (policy, lender) List.mem_cons_self ((reach donor).mp ho)
    have added : ledger.policy.Together (fun donor => (ledger.record donor).base)
        (before ∪ donors) (policy.donate total donated) := by
      rw [show policy = ledger.policy from policies (policy, lender) List.mem_cons_self]
      exact together.donate legal.base_legal disjoint weight
    obtain ⟨all, mem', result⟩ := ihRest (fun other ho => lends other (List.mem_cons_of_mem _ ho))
      (fun other ho => policies other (List.mem_cons_of_mem _ ho)) distinct
      (fun donor hd other ho => by
        rcases Finset.mem_union.mp hd with hb | hn
        · exact foreign donor hb other (List.mem_cons_of_mem _ ho)
        · have hne : lender ≠ other.2 := fun he => absent (List.mem_map.mpr ⟨other, ho, he.symm⟩)
          exact linked.donors_disjoint acyclic lent (lends other (List.mem_cons_of_mem _ ho)) hne
            ((reach donor).mp hn))
      added
    refine ⟨all, fun donor => ?_, result⟩
    rw [mem', Finset.mem_union, reach, List.exists_mem_cons_iff, or_assoc]

/-- A thread weighs what it and all its donors weigh together. -/
theorem Linked.weighs_together {thread : ThreadId} {weight : Int}
    (h : ledger.Weighs thread weight) :
    ∃ donors : Finset ThreadId,
      (∀ donor, donor ∈ donors ↔ ReflTransGen ledger.Lends donor thread) ∧
      ledger.policy.Together (fun donor => (ledger.record donor).base) donors weight := by
  have own : ∀ lender ∈ ledger.lenders thread, ledger.Lends lender.2 thread := fun lender hl =>
    linked.lends_iff_mem_lenders.mpr ⟨lender.1, hl⟩
  obtain ⟨donors, mem, together⟩ := linked.pools_together legal acyclic h own
    (fun lender hl => legal.policy_of_mem_lenders hl) (linked.lenders_nodup thread)
    (fun donor hd lender hl => by
      obtain rfl := Finset.mem_singleton.mp hd
      exact acyclic.not_donor_of_lender (own lender hl))
    (Policy.together_singleton legal.base_legal thread)
  refine ⟨donors, fun donor => ?_, together⟩
  rw [mem, Finset.mem_singleton, linked.donor_iff]

end ClosedForm

end Ledger

end Turnstile
