import Mathlib.Data.FinEnum
import Turnstile.Proofs.Random.Ending

/-!
# The words of the generator

The step of the generator is three updates, each of which adds a shifted copy of a word to
it. A word that such an update takes to zero is its own shifted copy, and so zero
(`eq_zero_of_shiftLeft`, `eq_zero_of_shiftRight`). As the step is linear it is therefore
one-to-one (`step_injective`), and a permutation of all words that leaves zero in place and
takes every other word to one that is not zero.

Whatever is done with a generator, it never comes to stand at zero, and every other word is given
next by some generator (`given_iff`).
-/

namespace Turnstile.XorShift

variable {word shift : UInt64}

/-! ## The step -/

/-- A word that is its own copy shifted to the left has no lowest bit. -/
theorem eq_zero_of_shiftLeft (moves : 0 < shift.toNat % 64) (h : word ^^^ (word <<< shift) = 0) :
    word = 0 := by
  have same : word.toNat = word.toNat <<< (shift.toNat % 64) % 2 ^ 64 := by
    rw [← UInt64.toNat_shiftLeft, ← UInt64.xor_eq_zero_iff.mp h]
  have bits : ∀ i, word.toNat.testBit i = false := by
    intro i
    induction i using Nat.strongRecOn with
    | ind i ih =>
      rw [same, Nat.testBit_mod_two_pow, Nat.testBit_shiftLeft]
      by_cases low : shift.toNat % 64 ≤ i
      · rw [ih (i - shift.toNat % 64) (by omega)]
        simp
      · simp [low]
  refine UInt64.toNat_inj.mp (Nat.eq_of_testBit_eq fun i => ?_)
  rw [bits i]
  exact (Nat.zero_testBit i).symm

/-- A word that is its own copy shifted to the right is not more than a half of itself. -/
theorem eq_zero_of_shiftRight (moves : 0 < shift.toNat % 64) (h : word ^^^ (word >>> shift) = 0) :
    word = 0 := by
  have same : word.toNat = word.toNat / 2 ^ (shift.toNat % 64) := by
    rw [← Nat.shiftRight_eq_div_pow, ← UInt64.toNat_shiftRight, ← UInt64.xor_eq_zero_iff.mp h]
  refine UInt64.toNat_inj.mp (Nat.eq_zero_of_not_pos fun positive => ?_)
  have smaller : word.toNat / 2 ^ (shift.toNat % 64) < word.toNat :=
    Nat.div_lt_self positive (Nat.one_lt_two_pow (Nat.ne_of_gt moves))
  exact Nat.ne_of_lt smaller same.symm

theorem step_zero : step 0 = 0 := by decide

/-- Nothing but zero is taken to zero. -/
theorem step_eq_zero_iff : step word = 0 ↔ word = 0 := by
  constructor
  · intro h
    have second := eq_zero_of_shiftLeft (by decide) h
    have first := eq_zero_of_shiftRight (by decide) second
    exact eq_zero_of_shiftLeft (by decide) first
  · rintro rfl
    exact step_zero

theorem step_injective : Function.Injective step := by
  intro a b same
  refine UInt64.xor_eq_zero_iff.mp (step_eq_zero_iff.mp ?_)
  rw [step_xor, same, UInt64.xor_self]

/-- There are finitely many words, so every one of them comes next after some word. -/
theorem step_bijective : Function.Bijective step := Finite.injective_iff_bijective.mp step_injective

/-! ## What is given -/

/-- A generator that a seed and some uses, none of which fails, lead to. -/
def Reached (generator : XorShift) : Prop :=
  ∃ seed uses, (ofSeed seed).used uses = .ok generator

theorem reached_ofSeed (seed : UInt64) : Reached (ofSeed seed) := ⟨seed, [], rfl⟩

/-- A search stands at the word that it gives, which is below the limit, and not at zero unless it
began there. -/
theorem firstBelow_some {limit : UInt64} {tries : Nat} {generator after : XorShift}
    (found : firstBelow limit tries generator = some (word, after)) :
    word < limit ∧ after = ⟨word⟩ ∧ (generator.state ≠ 0 → word ≠ 0) := by
  induction tries generalizing generator with
  | zero => cases found
  | succ tries ih =>
    have next : generator.state ≠ 0 → step generator.state ≠ 0 := mt step_eq_zero_iff.mp
    rw [firstBelow] at found
    split at found
    · rename_i below
      cases found
      exact ⟨below, rfl, next⟩
    · obtain ⟨below, stands, nonzero⟩ := ih found
      exact ⟨below, stands, fun start => nonzero (next start)⟩

theorem state_ne_zero_of_use {use : Use} {generator after : XorShift}
    (nonzero : generator.state ≠ 0)
    (used : generator.use use = .ok (word, after)) : after.state ≠ 0 := by
  cases use with
  | next =>
    cases used
    exact mt step_eq_zero_iff.mp nonzero
  | draw upper =>
    have drawn : draw upper generator = .ok (word, after) := used
    unfold draw at drawn
    split at drawn
    · cases drawn
    · split at drawn
      · rename_i found
        cases drawn
        obtain ⟨-, rfl, stays⟩ := firstBelow_some found
        exact stays nonzero
      · cases drawn

/-- No seed and no uses lead to zero. -/
theorem Reached.state_ne_zero {generator : XorShift} (reached : Reached generator) :
    generator.state ≠ 0 := by
  obtain ⟨seed, uses, reached⟩ := reached
  have start : (ofSeed seed).state ≠ 0 := by
    unfold ofSeed
    split
    · decide
    · assumption
  generalize ofSeed seed = first at start reached
  induction uses generalizing first with
  | nil =>
    cases reached
    exact start
  | cons use rest ih =>
    rw [used] at reached
    cases once : first.use use with
    | error violation =>
      rw [once] at reached
      cases reached
    | ok given =>
      rw [once] at reached
      exact ih given.2 (state_ne_zero_of_use start once) reached

/-- The words that are given are all words but zero. -/
theorem given_iff : (∃ generator, Reached generator ∧ generator.next.1 = word) ↔ word ≠ 0 := by
  constructor
  · rintro ⟨generator, reached, rfl⟩
    exact mt step_eq_zero_iff.mp reached.state_ne_zero
  · intro nonzero
    obtain ⟨seed, rfl⟩ := step_bijective.surjective word
    have seed_ne : seed ≠ 0 := mt step_eq_zero_iff.mpr nonzero
    exact ⟨ofSeed seed, reached_ofSeed seed, congrArg step (if_neg seed_ne)⟩

end Turnstile.XorShift
