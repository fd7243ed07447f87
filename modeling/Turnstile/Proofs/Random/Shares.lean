import Mathlib.Algebra.Order.BigOperators.Group.List
import Mathlib.Algebra.Order.Group.Int
import Mathlib.Data.Int.ConditionallyCompleteOrder
import Mathlib.Data.Int.Interval
import Mathlib.Data.Int.SuccPred
import Turnstile.Proofs.Random.Tickets

/-!
# Exact shares

Tickets are numbered through the list: those of the weight at `index` come after
`upTo weights index` others and end at `upTo weights (index + 1)`. Both sums that a draw takes,
the total beforehand and the running one of the scan, saturate at every step. As no summand is
negative this is the same as cutting the exact sum once (`passed_take`), so the two agree.

* **Who holds a ticket** (`holder?_eq_some_iff`): the weight within whose tickets it lies.
* **`exact_shares`**: a draw has no winner only where no weight is positive, and otherwise whoever
  holds the ticket that the generator gives. As long as the exact sum is a weight, each weight
  holds as many tickets as it stands for.
-/

namespace Turnstile.Lottery

variable {weights : List Int} {ticket exact : Int} {index : Nat}

/-- The tickets of the first `count` weights together, at most as many as the greatest weight. -/
def upTo (weights : List Int) (count : Nat) : Int :=
  min Weight.greatest ((weights.take count).map tickets).sum

/-- The ticket is one of those of the weight at `index`. -/
def Within (weights : List Int) (index : Nat) (ticket : Int) : Prop :=
  upTo weights index < ticket ∧ ticket ≤ upTo weights (index + 1)

/-! ## One cut for many -/

theorem tickets_nonneg (weight : Int) : 0 ≤ tickets weight := Int.le_max_right _ _

theorem sum_tickets_nonneg (weights : List Int) : 0 ≤ (weights.map tickets).sum :=
  List.sum_nonneg (List.forall_mem_map.mpr fun weight _ => tickets_nonneg weight)

/-- Adding tickets to a sum that was cut gives the cut of the exact sum. -/
theorem saturatingAdd_tickets (nonneg : 0 ≤ exact) (weight : Int) :
    Weight.saturatingAdd (min Weight.greatest exact) (tickets weight) =
      min Weight.greatest (exact + tickets weight) := by
  have := tickets_nonneg weight
  unfold Weight.saturatingAdd Weight.greatest Weight.least
  omega

/-- Passing tickets one weight after the other cuts the exact sum once. -/
theorem passed_eq (nonneg : 0 ≤ exact) (weights : List Int) :
    passed (min Weight.greatest exact) weights =
      min Weight.greatest (exact + (weights.map tickets).sum) := by
  induction weights generalizing exact with
  | nil => simp [passed]
  | cons weight rest ih =>
    have next : 0 ≤ exact + tickets weight := Int.add_nonneg nonneg (tickets_nonneg weight)
    calc passed (min Weight.greatest exact) (weight :: rest)
        = passed (min Weight.greatest (exact + tickets weight)) rest := by
          rw [← saturatingAdd_tickets nonneg]
          rfl
      _ = min Weight.greatest (exact + ((weight :: rest).map tickets).sum) := by
          rw [ih next, List.map_cons, List.sum_cons, Int.add_assoc]

theorem passed_take (weights : List Int) (count : Nat) :
    passed 0 (weights.take count) = upTo weights count := by
  have := passed_eq (Int.le_refl 0) (weights.take count)
  rwa [Int.zero_add] at this

/-- The total is the last of the running sums. -/
theorem total_eq_upTo (weights : List Int) : total weights = upTo weights weights.length := by
  have all : passed 0 weights = upTo weights weights.length := by
    have := passed_take weights weights.length
    rwa [List.take_length] at this
  show min (passed 0 weights) Weight.greatest = _
  rw [all]
  exact Int.min_eq_left (Int.min_le_left _ _)

theorem upTo_nonneg (weights : List Int) (count : Nat) : 0 ≤ upTo weights count :=
  Int.le_min.mpr ⟨by decide, sum_tickets_nonneg _⟩

/-- What the weights from `count` on add. -/
theorem sum_take_add_drop (weights : List Int) (count : Nat) :
    ((weights.take count).map tickets).sum + ((weights.drop count).map tickets).sum =
      (weights.map tickets).sum := by
  rw [List.map_take, List.map_drop, List.sum_take_add_sum_drop]

theorem sum_take_le (weights : List Int) (count : Nat) :
    ((weights.take count).map tickets).sum ≤ (weights.map tickets).sum := by
  have := sum_take_add_drop weights count
  have := sum_tickets_nonneg (weights.drop count)
  omega

theorem upTo_le_total (weights : List Int) (count : Nat) : upTo weights count ≤ total weights := by
  have := sum_take_le weights count
  rw [total_eq_upTo, upTo, upTo, List.take_length]
  omega

theorem sum_take_succ {weight : Int} (at_ : weights[index]? = some weight) :
    ((weights.take (index + 1)).map tickets).sum =
      ((weights.take index).map tickets).sum + tickets weight := by
  rw [List.take_add_one, at_, List.map_append, List.sum_append]
  simp

/-! ## Who holds a ticket -/

/-- A scan that has not reached the ticket stops at the weight within whose tickets it lies. -/
theorem holderFrom_eq_some_iff {before : Int} (small : before ≤ Weight.greatest)
    (new : before < ticket) :
    holderFrom before ticket weights = some index ↔
      passed before (weights.take index) < ticket ∧
        ticket ≤ passed before (weights.take (index + 1)) := by
  induction weights generalizing before index with
  | nil => exact iff_of_false (by simp [holderFrom]) fun within => Int.not_le.mpr new within.2
  | cons weight rest ih =>
    have bound := saturatingAdd_le_greatest before (tickets weight)
    rw [holderFrom]
    split
    case isTrue reached =>
      cases index with
      | zero => exact iff_of_true rfl ⟨new, reached⟩
      | succ index =>
        -- the running sum never leads down again below the ticket
        have stays := le_passed bound (rest.take index)
        exact iff_of_false (by simp) fun within =>
          Int.not_le.mpr within.1 (Int.le_trans reached stays)
    case isFalse later =>
      cases index with
      | zero => exact iff_of_false (by simp) fun within => later within.2
      | succ index =>
        have shift (held : Option Nat) :
            held.map (· + 1) = some (index + 1) ↔ held = some index := by simp
        exact (shift _).trans (ih bound (Int.not_le.mp later))

/-- A ticket is held by the weight within whose tickets it lies. -/
theorem holder?_eq_some_iff (first : 1 ≤ ticket) :
    holder? weights ticket = some index ↔ Within weights index ticket := by
  rw [holder?, holderFrom_eq_some_iff (by decide) (Int.lt_of_lt_of_le Int.zero_lt_one first),
    passed_take, passed_take]
  rfl

/-- A ticket has one holder, since only one weight holds it. -/
theorem Within.unique {other : Nat} (within : Within weights index ticket)
    (also : Within weights other ticket) : other = index := by
  have first : 1 ≤ ticket := Int.lt_of_le_of_lt (upTo_nonneg weights index) within.1
  rw [← holder?_eq_some_iff first] at within also
  exact Option.some.inj (also.symm.trans within)

/-- Only a positive weight holds tickets. -/
theorem Within.positive (within : Within weights index ticket) :
    ∃ weight, weights[index]? = some weight ∧ 0 < weight := by
  have grows : upTo weights index < upTo weights (index + 1) :=
    Int.lt_of_lt_of_le within.1 within.2
  unfold upTo at grows
  cases at_ : weights[index]? with
  | none =>
    rw [List.take_add_one, at_] at grows
    exact absurd grows (by simp)
  | some weight =>
    rw [sum_take_succ at_] at grows
    refine ⟨weight, rfl, ?_⟩
    unfold tickets at grows
    omega

/-- Every ticket up to the total has a holder. -/
theorem exists_within (first : 1 ≤ ticket) (last : ticket ≤ total weights) :
    ∃ index, Within weights index ticket := by
  have passes : ticket ≤ passed 0 weights := Int.le_trans last (Int.min_le_left _ _)
  obtain ⟨index, held, -⟩ := holderFrom_some (Int.lt_of_lt_of_le Int.zero_lt_one first) passes
  exact ⟨index, (holder?_eq_some_iff first).mp held⟩

/-- There are tickets just where some weight is positive. -/
theorem total_pos_iff : 0 < total weights ↔ ∃ weight ∈ weights, 0 < weight := by
  constructor
  · intro positive
    obtain ⟨index, within⟩ := exists_within (Int.le_refl 1) positive
    obtain ⟨weight, at_, positive⟩ := within.positive
    exact ⟨weight, List.mem_of_getElem? at_, positive⟩
  · rintro ⟨weight, listed, positive⟩
    have part : tickets weight ≤ (weights.map tickets).sum :=
      List.single_le_sum (List.forall_mem_map.mpr fun weight _ => tickets_nonneg weight) _
        (List.mem_map_of_mem listed)
    rw [total_eq_upTo, upTo, List.take_length]
    unfold tickets Weight.greatest at *
    omega

/-! ## Shares -/

/-- The tickets that select the weight at `index` are those it stands for. -/
theorem filter_holder? (weights : List Int) (index : Nat) :
    (Finset.Icc 1 (total weights)).filter (fun ticket => holder? weights ticket = some index) =
      Finset.Ioc (upTo weights index) (upTo weights (index + 1)) := by
  ext ticket
  rw [Finset.mem_filter, Finset.mem_Icc, Finset.mem_Ioc]
  constructor
  · rintro ⟨⟨first, -⟩, held⟩
    exact (holder?_eq_some_iff first).mp held
  · intro within
    have first : 1 ≤ ticket := Int.lt_of_le_of_lt (upTo_nonneg weights index) within.1
    have last : ticket ≤ total weights := Int.le_trans within.2 (upTo_le_total weights _)
    exact ⟨⟨first, last⟩, (holder?_eq_some_iff first).mpr within⟩

/-- As long as the exact sum is a weight, a weight holds as many tickets as it stands for. -/
theorem card_filter_holder? (exact : (weights.map tickets).sum ≤ Weight.greatest) {weight : Int}
    (at_ : weights[index]? = some weight) :
    (((Finset.Icc 1 (total weights)).filter fun ticket =>
      holder? weights ticket = some index).card : Int) = max weight 0 := by
  have next := sum_take_succ at_
  have whole := sum_take_le weights (index + 1)
  have nonneg := tickets_nonneg weight
  rw [filter_holder?, Int.card_Ioc, upTo, upTo]
  unfold tickets at *
  omega

/-- What a draw does, for all weights and generators. It has no winner just where no weight is
positive, and leaves the generator alone there. Elsewhere it takes a ticket from 1 to the total
from the generator, which is cast back to a weight without loss, and whoever holds that ticket
wins. Every ticket up to the total lies within those of exactly one weight, which is positive and
the holder. If the exact sum is a weight, each weight holds as many tickets as it stands for. -/
theorem exact_shares (weights : List Int) :
    (∀ generator,
      ((∃ after, draw weights generator = .ok (none, after)) ↔ ∀ weight ∈ weights, weight ≤ 0) ∧
      ((∀ weight ∈ weights, weight ≤ 0) → draw weights generator = .ok (none, generator)) ∧
      ((∃ weight ∈ weights, 0 < weight) → ∃ word after index,
        XorShift.draw (UInt64.ofNat (total weights).toNat) generator = .ok (word, after) ∧
        1 ≤ word.toNat ∧ word.toNat ≤ total weights ∧ Weight.ofWord word = word.toNat ∧
        Within weights index word.toNat ∧
        draw weights generator = .ok (some index, after))) ∧
    total weights = upTo weights weights.length ∧
    (∀ ticket, 1 ≤ ticket → ticket ≤ total weights →
      ∃ index, (∀ other, Within weights other ticket ↔ other = index) ∧
        holder? weights ticket = some index ∧
        ∃ weight, weights[index]? = some weight ∧ 0 < weight) ∧
    ((weights.map tickets).sum ≤ Weight.greatest →
      ∀ index weight, weights[index]? = some weight →
        (((Finset.Icc 1 (total weights)).filter fun ticket =>
          holder? weights ticket = some index).card : Int) = max weight 0) := by
  have wins : ∀ generator, (∃ weight ∈ weights, 0 < weight) → ∃ word after index,
      XorShift.draw (UInt64.ofNat (total weights).toNat) generator = .ok (word, after) ∧
      1 ≤ word.toNat ∧ word.toNat ≤ total weights ∧ Weight.ofWord word = word.toNat ∧
      Within weights index word.toNat ∧ draw weights generator = .ok (some index, after) := by
    intro generator positive
    obtain ⟨word, after, drawn, first, last, cast, result⟩ :=
      draw_of_ticketed (total_pos_iff.mpr positive) generator
    obtain ⟨index, within⟩ := exists_within (Int.ofNat_le.mpr first) last
    refine ⟨word, after, index, drawn, first, last, cast, within, ?_⟩
    rw [result, (holder?_eq_some_iff (Int.ofNat_le.mpr first)).mpr within]
  have none_wins : ∀ generator, (∀ weight ∈ weights, weight ≤ 0) →
      draw weights generator = .ok (none, generator) := by
    intro generator without
    have empty : ¬ 0 < total weights := by
      rw [total_pos_iff]
      rintro ⟨weight, listed, positive⟩
      exact Int.not_le.mpr positive (without weight listed)
    rw [draw, if_pos (Int.not_lt.mp empty)]
  refine ⟨fun generator => ⟨⟨?_, fun without => ⟨generator, none_wins generator without⟩⟩,
    none_wins generator, wins generator⟩, total_eq_upTo weights, ?_,
    fun exact index weight => card_filter_holder? exact⟩
  · rintro ⟨after, drawn⟩ weight listed
    refine Int.not_lt.mp fun positive => ?_
    obtain ⟨_, _, index, -, -, -, -, -, winner⟩ := wins generator ⟨weight, listed, positive⟩
    rw [winner] at drawn
    cases drawn
  · intro ticket first last
    obtain ⟨index, within⟩ := exists_within first last
    exact ⟨index, fun other => ⟨within.unique, fun same => same ▸ within⟩,
      (holder?_eq_some_iff first).mpr within, within.positive⟩

/-- Of three weights the middle one stands for no tickets: the first wins one ticket in four and
the last three. -/
theorem exact_shares_mixed :
    total [1, -4, 3] = 4 ∧
    (∃ index after, draw [1, -4, 3] (XorShift.ofSeed 1) = .ok (some index, after)) ∧
    (((Finset.Icc 1 (total [1, -4, 3])).filter fun ticket =>
      holder? [1, -4, 3] ticket = some 2).card : Int) = 3 := by
  obtain ⟨draws, whole, -, shares⟩ := exact_shares [1, -4, 3]
  obtain ⟨_, after, index, -, -, -, -, -, won⟩ := (draws (XorShift.ofSeed 1)).2.2 ⟨1, by decide⟩
  exact ⟨whole.trans (by decide), ⟨index, after, won⟩, shares (by decide) 2 3 rfl⟩

end Turnstile.Lottery
