import Mathlib.Algebra.Group.Nat.Defs
import Mathlib.Logic.Function.Iterate
import Turnstile.Selection

/-!
# Why a draw ends

The step of the generator is linear over bits, so its words obey a linear recurrence: a fixed
choice among any 65 words in a row adds up to zero (`combine_recurrence`). The choice takes an odd
number of words, so they cannot all have their top bits set (`exists_top_clear`), and a word with
a clear top bit is below every zone (`top_le_zone`).

* **`draw_ok`**: a draw from a pool that is not empty gives a number, whatever the generator.
* **`Lottery.draw_ok`**: so does a draw among any weights.
-/

namespace Turnstile

namespace XorShift

/-! ## Linearity -/

theorem xor_xor_xor_comm (a b c d : UInt64) : a ^^^ b ^^^ (c ^^^ d) = a ^^^ c ^^^ (b ^^^ d) := by
  ac_rfl

theorem step_xor (a b : UInt64) : step (a ^^^ b) = step a ^^^ step b := by
  have left : ∀ x y k : UInt64,
      x ^^^ y ^^^ ((x ^^^ y) <<< k) = x ^^^ x <<< k ^^^ (y ^^^ y <<< k) := by
    intro x y k
    rw [UInt64.shiftLeft_xor, xor_xor_xor_comm]
  have right : ∀ x y k : UInt64,
      x ^^^ y ^^^ ((x ^^^ y) >>> k) = x ^^^ x >>> k ^^^ (y ^^^ y >>> k) := by
    intro x y k
    rw [UInt64.shiftRight_xor, xor_xor_xor_comm]
  simp only [step, left, right]

/-- Add up some of the words that follow one another from `word` on. -/
def combine : (choice : List Bool) → (word : UInt64) → UInt64
  | [], _ => 0
  | taken :: rest, word => (if taken then word else 0) ^^^ combine rest (step word)

theorem combine_xor (choice : List Bool) (a b : UInt64) :
    combine choice (a ^^^ b) = combine choice a ^^^ combine choice b := by
  induction choice generalizing a b with
  | nil => simp [combine]
  | cons taken rest ih =>
    simp only [combine, step_xor, ih]
    cases taken
    · simp
    · simp only [if_true]
      ac_rfl

/-- Taking the top bit away from a number makes it smaller. -/
theorem xor_two_pow_lt {n m : Nat} (hm : m < 2 ^ (n + 1)) (low : 2 ^ n ≤ m) :
    m ^^^ 2 ^ n < 2 ^ n := by
  obtain ⟨r, hr⟩ := Nat.exists_eq_add_of_le low
  refine Nat.lt_pow_two_of_testBit _ fun i hi => ?_
  rw [Nat.testBit_xor, Nat.testBit_two_pow]
  rcases Nat.lt_or_eq_of_le hi with above | rfl
  · have := Nat.pow_le_pow_right (n := 2) (by omega) above
    simp [Nat.testBit_lt_two_pow (Nat.lt_of_lt_of_le hm this), Nat.ne_of_lt above]
  · have small : r < 2 ^ n := by
      rw [Nat.pow_succ] at hm
      omega
    simp [hr, Nat.testBit_two_pow_add_eq, Nat.testBit_lt_two_pow small]

/-- What is linear and vanishes at all powers of two vanishes everywhere. -/
theorem eq_zero_of_powers {f : UInt64 → UInt64} (linear : ∀ a b, f (a ^^^ b) = f a ^^^ f b)
    (powers : ∀ i < 64, f (UInt64.ofNat (2 ^ i)) = 0) (word : UInt64) : f word = 0 := by
  -- By induction on how many bits there are to be set.
  have below : ∀ n ≤ 64, ∀ m < 2 ^ n, f (UInt64.ofNat m) = 0 := by
    intro n
    induction n with
    | zero =>
      intro _ m hm
      obtain rfl : m = 0 := by omega
      have := linear 0 0
      simpa using this
    | succ n ih =>
      intro hn m hm
      by_cases low : m < 2 ^ n
      · exact ih (by omega) m low
      · -- take the top bit away
        have split : m = 2 ^ n ^^^ (m ^^^ 2 ^ n) := by
          rw [Nat.xor_comm m, ← Nat.xor_assoc, Nat.xor_self, Nat.zero_xor]
        have rest := xor_two_pow_lt hm (Nat.not_lt.mp low)
        rw [split, UInt64.ofNat_xor, linear, powers n (by omega), ih (by omega) _ rest]
        simp
  have := below 64 (Nat.le_refl _) word.toNat word.toNat_lt
  rwa [UInt64.ofNat_toNat] at this

/-- The words of the choice are numbered by the powers in the characteristic polynomial of the
step. -/
def recurrence : List Bool :=
  (List.range 65).map fun i => i ∈ [0, 9, 12, 13, 16, 20, 23, 27, 28, 30, 32, 33, 37, 39, 42, 44,
    46, 47, 49, 50, 51, 52, 53, 56, 64]

theorem combine_recurrence_powers :
    ∀ i < 64, combine recurrence (UInt64.ofNat (2 ^ i)) = 0 := by
  decide +kernel

/-- The recurrence that the words of the generator obey. -/
theorem combine_recurrence (word : UInt64) : combine recurrence word = 0 :=
  eq_zero_of_powers (combine_xor recurrence) combine_recurrence_powers word

/-! ## Top bits -/

/-- The least word with its top bit set. -/
def top : UInt64 := 0x8000000000000000

/-- Whether a word has its top bit set. -/
def hasTop (word : UInt64) : Bool := word.toNat.testBit 63

theorem hasTop_xor (a b : UInt64) : hasTop (a ^^^ b) = (hasTop a ^^ hasTop b) := by
  simp [hasTop]

theorem hasTop_zero : hasTop 0 = false := by decide

theorem lt_top_of_not_hasTop {word : UInt64} (h : hasTop word = false) : word < top := by
  rw [UInt64.lt_iff_toNat_lt]
  refine Nat.lt_of_not_le fun high => ?_
  obtain ⟨r, hr⟩ := Nat.exists_eq_add_of_le (show 2 ^ 63 ≤ word.toNat from high)
  have small : r < 2 ^ 63 := by
    have := word.toNat_lt
    omega
  rw [hasTop, hr, Nat.testBit_two_pow_add_eq, Nat.testBit_lt_two_pow small] at h
  cases h

/-- Top bits that are all set add up to the parity of the number of words taken. -/
theorem hasTop_combine {choice : List Bool} {word : UInt64}
    (all : ∀ i < choice.length, hasTop (step^[i] word) = true) :
    hasTop (combine choice word) = choice.foldr Bool.xor false := by
  induction choice generalizing word with
  | nil => exact hasTop_zero
  | cons taken rest ih =>
    have first : hasTop word = true := all 0 (by simp)
    have others : hasTop (combine rest (step word)) = rest.foldr Bool.xor false :=
      ih fun i hi => all (i + 1) (by simpa using hi)
    rw [combine, hasTop_xor, others, List.foldr_cons]
    cases taken
    · simp [hasTop_zero]
    · simp [first]

/-- No 65 words in a row have their top bits set. -/
theorem exists_top_clear (word : UInt64) : ∃ i < 65, step^[i] word < top := by
  refine Classical.byContradiction fun none => ?_
  have all : ∀ i < recurrence.length, hasTop (step^[i] word) = true := by
    intro i hi
    cases clear : hasTop (step^[i] word) with
    | true => rfl
    | false => exact absurd ⟨i, hi, lt_top_of_not_hasTop clear⟩ none
  have parity := hasTop_combine all
  rw [combine_recurrence, hasTop_zero] at parity
  exact absurd parity (by decide +kernel)

/-! ## Draws -/

theorem toNat_pos {word : UInt64} (h : word ≠ 0) : 0 < word.toNat :=
  Nat.pos_of_ne_zero fun zero => h (UInt64.toNat_inj.mp zero)

/-- The zone is cut at a multiple of the bound. -/
theorem toNat_zone (upper : UInt64) :
    (zone upper).toNat = upper.toNat * (greatestWord.toNat / upper.toNat) := by
  have parts := Nat.div_add_mod greatestWord.toNat upper.toNat
  have le : greatestWord % upper ≤ greatestWord := by
    rw [UInt64.le_iff_toNat_le, UInt64.toNat_mod]
    exact Nat.mod_le _ _
  rw [zone, UInt64.toNat_sub_of_le _ _ le, UInt64.toNat_mod]
  omega

theorem top_le_zone {upper : UInt64} (h : upper ≠ 0) : top ≤ zone upper := by
  have positive : 0 < upper.toNat := toNat_pos h
  have below := Nat.mod_lt greatestWord.toNat positive
  have := upper.toNat_lt
  have parts := Nat.div_add_mod greatestWord.toNat upper.toNat
  have whole : upper.toNat * 1 ≤ upper.toNat * (greatestWord.toNat / upper.toNat) :=
    Nat.mul_le_mul_left _ ((Nat.one_le_div_iff positive).mpr (Nat.le_of_lt_succ this))
  rw [UInt64.le_iff_toNat_le, toNat_zone]
  have : greatestWord.toNat = 18446744073709551615 := rfl
  have : top.toNat = 9223372036854775808 := rfl
  omega

/-- A search finds a word if one of those that it may try is small enough. -/
theorem firstBelow_ok {limit : UInt64} {tries : Nat} {generator : XorShift}
    (h : ∃ i < tries, step^[i + 1] generator.state < limit) :
    ∃ word after, firstBelow limit tries generator = some (word, after) := by
  induction tries generalizing generator with
  | zero =>
    obtain ⟨i, hi, -⟩ := h
    exact absurd hi (Nat.not_lt_zero i)
  | succ tries ih =>
    rw [firstBelow]
    split
    · exact ⟨_, _, rfl⟩
    · rename_i above
      obtain ⟨i, hi, small⟩ := h
      cases i with
      | zero => exact absurd small above
      | succ i => exact ih ⟨i, Nat.lt_of_succ_lt_succ hi, small⟩

theorem draw_ok {upper : UInt64} (h : upper ≠ 0) (generator : XorShift) :
    ∃ number after, draw upper generator = .ok (number, after) := by
  obtain ⟨i, hi, small⟩ := exists_top_clear (step generator.state)
  obtain ⟨word, after, found⟩ : ∃ word after,
      firstBelow (zone upper) patience generator = some (word, after) :=
    firstBelow_ok ⟨i, hi, UInt64.lt_of_lt_of_le small (top_le_zone h)⟩
  refine ⟨share upper word, after, ?_⟩
  rw [draw, if_neg h, found]

end XorShift

/-- A draw among weights never fails. -/
theorem Lottery.draw_ok (weights : List Int) (generator : XorShift) :
    ∃ index after, Lottery.draw weights generator = .ok (index, after) := by
  unfold Lottery.draw
  split
  · exact ⟨_, _, rfl⟩
  · rename_i some
    have bound : total weights ≤ 2147483647 := Int.min_le_right _ _
    have word : UInt64.ofNat (total weights).toNat ≠ 0 := by
      intro hz
      have := congrArg UInt64.toNat hz
      rw [UInt64.toNat_ofNat_of_lt' (by simp only [UInt64.size]; omega)] at this
      have : (total weights).toNat = 0 := this
      omega
    obtain ⟨ticket, after, drawn⟩ := XorShift.draw_ok word generator
    rw [drawn]
    exact ⟨_, _, rfl⟩

end Turnstile
