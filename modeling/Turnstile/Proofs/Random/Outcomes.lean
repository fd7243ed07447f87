import Mathlib.Data.Set.Card
import Mathlib.Order.Interval.Finset.Nat
import Turnstile.Proofs.Random.Cycle

/-!
# What a draw makes of the words

A draw that meets a word below the zone takes it, and makes of it the number that it stands for. The
words of the zone are counted off in rounds, one word for each number in turn, and the zone is cut
so that the last round is whole. The first word of the first round is zero, however, and it stands
for 1. As no generator ever gives zero, 1 is made of one word less than any other number is: that is
one round less (`ncard_outcomes`).

`even_but_for_one` says how many words each number is made of. A bound of more than half of
all words leaves room for one round only, and a draw up to such a bound never gives 1
(`one_is_never_drawn`).
-/

namespace Turnstile.XorShift

variable {upper number word : UInt64}

/-- The words of which a draw makes the number: one that some generator gives next, and that a draw
takes at once. -/
def outcomes (upper number : UInt64) : Set UInt64 :=
  {word | ∃ generator, Reached generator ∧ generator.next.1 = word ∧
    draw upper generator = .ok (number, generator.next.2)}

/-- A draw stands at the word that it takes, so it stands at the next word only if it has
taken that one. -/
theorem draw_at_once_iff {generator : XorShift} :
    draw upper generator = .ok (number, generator.next.2) ↔
      upper ≠ 0 ∧ generator.next.1 < zone upper ∧ share upper generator.next.1 = number := by
  constructor
  · intro drawn
    unfold draw at drawn
    split at drawn
    · cases drawn
    · rename_i nonzero
      split at drawn
      · rename_i word after found
        obtain ⟨below, rfl, -⟩ := firstBelow_some found
        obtain ⟨rfl, stands⟩ := Prod.mk.inj (Except.ok.inj drawn)
        obtain rfl : word = generator.next.1 := congrArg state stands
        exact ⟨nonzero, below, rfl⟩
      · cases drawn
  · rintro ⟨nonzero, below, rfl⟩
    have found : firstBelow (zone upper) patience generator = some generator.next := by
      rw [patience, firstBelow, if_pos below]
    rw [draw, if_neg nonzero, found]

theorem mem_outcomes_iff (nonzero : upper ≠ 0) :
    word ∈ outcomes upper number ↔ word ≠ 0 ∧ word < zone upper ∧ share upper word = number := by
  constructor
  · rintro ⟨generator, reached, rfl, drawn⟩
    exact ⟨given_iff.mp ⟨generator, reached, rfl⟩, (draw_at_once_iff.mp drawn).2⟩
  · rintro ⟨given, taken⟩
    obtain ⟨generator, reached, rfl⟩ := given_iff.mpr given
    exact ⟨generator, reached, rfl, draw_at_once_iff.mpr ⟨nonzero, taken⟩⟩

/-! ## Rounds -/

/-- How many rounds there are in the zone. -/
def rounds (upper : UInt64) : Nat := greatestWord.toNat / upper.toNat

/-- The first round in which the number has a word that is given. -/
def firstRound (number : UInt64) : Nat := if number = 1 then 1 else 0

/-- The word that stands for the number in a round. -/
def wordOf (upper number : UInt64) (round : Nat) : UInt64 :=
  UInt64.ofNat (upper.toNat * round + (number.toNat - 1))

section

variable (first : 1 ≤ number.toNat) (last : number.toNat ≤ upper.toNat)
include first last

/-- No word of the zone is beyond the greatest. -/
theorem toNat_wordOf {round : Nat} (within : round < rounds upper) :
    (wordOf upper number round).toNat = upper.toNat * round + (number.toNat - 1) := by
  have whole : upper.toNat * (round + 1) ≤ upper.toNat * rounds upper :=
    Nat.mul_le_mul_left _ within
  have bound : upper.toNat * rounds upper ≤ greatestWord.toNat := Nat.mul_div_le _ _
  rw [Nat.mul_add, Nat.mul_one] at whole
  refine UInt64.toNat_ofNat_of_lt' (Nat.lt_of_lt_of_le ?_ greatestWord.toNat_lt)
  omega

/-- A number is made of its words in all rounds from its first on. -/
theorem outcomes_eq_image : outcomes upper number =
    wordOf upper number '' (Finset.Ico (firstRound number) (rounds upper) : Set Nat) := by
  have positive : 0 < upper.toNat := Nat.lt_of_lt_of_le first last
  have nonzero : upper ≠ 0 := fun zero => Nat.ne_of_gt positive (congrArg UInt64.toNat zero)
  ext word
  rw [mem_outcomes_iff nonzero, UInt64.lt_iff_toNat_lt, toNat_zone, Set.mem_image]
  constructor
  · rintro ⟨given, taken, rfl⟩
    -- The round of a word is how often `upper` goes into it.
    have parts := Nat.div_add_mod word.toNat upper.toNat
    have within : word.toNat / upper.toNat < rounds upper := Nat.div_lt_of_lt_mul taken
    have place : (share upper word).toNat - 1 = word.toNat % upper.toNat := by
      rw [toNat_share nonzero, Nat.add_sub_cancel]
    refine ⟨word.toNat / upper.toNat, Finset.mem_coe.mpr (Finset.mem_Ico.mpr ⟨?_, within⟩), ?_⟩
    · unfold firstRound
      split
      · rename_i one
        rw [one] at place
        refine Nat.pos_of_ne_zero fun none => given (UInt64.toNat_inj.mp ?_)
        rw [← parts, none, ← place]
        rfl
      · exact Nat.zero_le _
    · rw [wordOf, place, parts, UInt64.ofNat_toNat]
  · rintro ⟨round, between, rfl⟩
    obtain ⟨early, within⟩ := Finset.mem_Ico.mp (Finset.mem_coe.mp between)
    have value := toNat_wordOf first last within
    have whole : upper.toNat * (round + 1) ≤ upper.toNat * rounds upper :=
      Nat.mul_le_mul_left _ within
    rw [Nat.mul_add, Nat.mul_one] at whole
    refine ⟨fun zero => ?_, ?_, UInt64.toNat_inj.mp ?_⟩
    · -- zero is the word that stands for 1 in round zero, which is not counted
      rw [zero] at value
      have none : upper.toNat * round + (number.toNat - 1) = 0 := value.symm
      obtain rfl : round = 0 :=
        (Nat.mul_eq_zero.mp (Nat.eq_zero_of_add_eq_zero_right none)).resolve_left
        (Nat.ne_of_gt positive)
      have one : number = 1 := UInt64.toNat_inj.mp (show number.toNat = 1 by omega)
      rw [firstRound, if_pos one] at early
      exact absurd early (by decide)
    · rw [value]
      exact Nat.lt_of_lt_of_le (by omega) whole
    · rw [toNat_share nonzero, value, Nat.mul_add_mod, Nat.mod_eq_of_lt (by omega)]
      omega

theorem ncard_outcomes : (outcomes upper number).ncard = rounds upper - firstRound number := by
  have positive : 0 < upper.toNat := Nat.lt_of_lt_of_le first last
  rw [outcomes_eq_image first last, Set.InjOn.ncard_image, Set.ncard_coe_finset, Nat.card_Ico]
  intro round between other between' same
  have within := (Finset.mem_Ico.mp (Finset.mem_coe.mp between)).2
  have within' := (Finset.mem_Ico.mp (Finset.mem_coe.mp between')).2
  have values := congrArg UInt64.toNat same
  rw [toNat_wordOf first last within, toNat_wordOf first last within'] at values
  exact Nat.eq_of_mul_eq_mul_left positive (Nat.add_right_cancel values)

theorem outcomes_nonempty_iff : (outcomes upper number).Nonempty ↔
    firstRound number < rounds upper := by
  rw [outcomes_eq_image first last]
  exact Set.image_nonempty.trans (Finset.coe_nonempty.trans Finset.nonempty_Ico)

end

/-! ## How many words each number is made of -/

/-- There is a round for every bound. -/
theorem rounds_pos (nonzero : upper ≠ 0) : 0 < rounds upper :=
  Nat.div_pos (Nat.le_of_lt_succ upper.toNat_lt) (toNat_pos nonzero)

/-- Of all words that are given, which are those that are not zero, a draw makes any number but 1
equally often, and 1 once less. Whatever else the bound is, every number but 1 is made of some word,
and 1 is where there are two rounds, which takes a bound of at most half of all words. -/
theorem even_but_for_one (nonzero : upper ≠ 0) :
    (∀ word, (∃ generator, Reached generator ∧ generator.next.1 = word) ↔ word ≠ 0) ∧
    (∀ number : UInt64, 1 ≤ number → number ≤ upper →
      (outcomes upper number).ncard =
        if number = 1 then greatestWord.toNat / upper.toNat - 1
        else greatestWord.toNat / upper.toNat) ∧
    (∀ number other : UInt64, 1 ≤ number → number ≤ upper → 1 ≤ other → other ≤ upper →
      ((outcomes upper number).ncard = (outcomes upper other).ncard ↔ (number = 1 ↔ other = 1))) ∧
    (∀ number : UInt64, 1 ≤ number → number ≤ upper →
      ((outcomes upper number).Nonempty ↔ number ≠ 1 ∨ 2 * upper.toNat ≤ greatestWord.toNat)) := by
  have some := rounds_pos nonzero
  have count : ∀ number : UInt64, 1 ≤ number → number ≤ upper →
      (outcomes upper number).ncard = rounds upper - firstRound number := fun number first last =>
    ncard_outcomes (UInt64.le_iff_toNat_le.mp first) (UInt64.le_iff_toNat_le.mp last)
  refine ⟨fun word => given_iff, ?_, ?_, ?_⟩
  · intro number first last
    rw [count number first last, firstRound, rounds]
    split <;> rfl
  · intro number other first last first' last'
    rw [count number first last, count other first' last', firstRound, firstRound]
    by_cases one : number = 1 <;> by_cases one' : other = 1 <;> simp [one, one'] <;> omega
  · intro number first last
    have first' := UInt64.le_iff_toNat_le.mp first
    have last' := UInt64.le_iff_toNat_le.mp last
    have two : 2 ≤ rounds upper ↔ 2 * upper.toNat ≤ greatestWord.toNat :=
      Nat.le_div_iff_mul_le (toNat_pos nonzero)
    rw [outcomes_nonempty_iff first' last', ← two, firstRound]
    by_cases one : number = 1
    · simp only [one, if_true, ne_eq, not_true_eq_false, false_or]
      omega
    · simp [one, some]

/-- Up to 3, the number 2 is made of a third of all words that are given, and 1 of one word less. -/
theorem even_but_for_one_thirds :
    (outcomes 3 2).ncard = 6148914691236517205 ∧ (outcomes 3 1).ncard = 6148914691236517204 := by
  obtain ⟨-, count, -⟩ := even_but_for_one (show (3 : UInt64) ≠ 0 by decide)
  exact ⟨count 2 (by decide) (by decide), count 1 (by decide) (by decide)⟩

/-- Not every number is made of equally many words: up to the greatest word, no number is 1. The
seed is the one after which the greatest word is given next, the only one that is left for 1. The
draw throws it away. -/
theorem one_is_never_drawn :
    (¬ ∀ upper number other : UInt64, 1 ≤ number → number ≤ upper → 1 ≤ other → other ≤ upper →
      (outcomes upper number).ncard = (outcomes upper other).ncard) ∧
    outcomes greatestWord 1 = ∅ ∧
    (ofSeed 7650297886450228676).next.1 = greatestWord ∧
    draw greatestWord (ofSeed 7650297886450228676) = .ok (1065361345, ⟨1065361344⟩) := by
  have one : (outcomes greatestWord 1).ncard = 0 := ncard_outcomes (by decide) (by decide)
  have two : (outcomes greatestWord 2).ncard = 1 := ncard_outcomes (by decide) (by decide)
  refine ⟨fun even => ?_, ?_, by decide, by decide +kernel⟩
  · have same := even greatestWord 1 2 (by decide) (by decide) (by decide) (by decide)
    rw [one, two] at same
    exact absurd same (by decide)
  · rw [outcomes_eq_image (by decide) (by decide)]
    exact Set.image_eq_empty.mpr (Finset.coe_eq_empty.mpr (by decide))

end Turnstile.XorShift
