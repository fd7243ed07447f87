import Turnstile.Proofs.Random.Recurrence

/-!
# Somebody holds the ticket

A draw among weights that all hold a ticket has a winner (`Lottery.draw_some`). The word drawn is
a number from 1 to the sum of tickets, cast back to a weight without loss, and numbering the
tickets through the list passes every number up to that sum.

Sums saturate, but adding tickets never leads down.
-/

namespace Turnstile

namespace XorShift

theorem toNat_share {upper : UInt64} (nonzero : upper ≠ 0) (word : UInt64) :
    (share upper word).toNat = word.toNat % upper.toNat + 1 := by
  have below := Nat.mod_lt word.toNat (toNat_pos nonzero)
  have bound := upper.toNat_lt
  have one : (1 : UInt64).toNat = 1 := rfl
  rw [share, UInt64.toNat_add, UInt64.toNat_mod, one]
  omega

/-- A draw gives a number from 1 to its bound. -/
theorem draw_bounds {upper number : UInt64} {generator after : XorShift}
    (h : draw upper generator = .ok (number, after)) :
    0 < number.toNat ∧ number.toNat ≤ upper.toNat := by
  unfold draw at h
  split at h
  · cases h
  · rename_i nonzero
    split at h
    · rename_i word _ _
      cases h
      have below := Nat.mod_lt word.toNat (toNat_pos nonzero)
      rw [toNat_share nonzero]
      omega
    · cases h

end XorShift

namespace Lottery

/-- Tickets passed so far, after those of a list of weights. -/
def passed (before : Int) (weights : List Int) : Int :=
  weights.foldl (fun sum weight => Weight.saturatingAdd sum (tickets weight)) before

theorem le_saturatingAdd {before weight : Int} (small : before ≤ Weight.greatest) :
    before ≤ Weight.saturatingAdd before (tickets weight) := by
  unfold Weight.saturatingAdd tickets Weight.greatest Weight.least at *
  omega

theorem saturatingAdd_le_greatest (a b : Int) : Weight.saturatingAdd a b ≤ Weight.greatest := by
  unfold Weight.saturatingAdd Weight.greatest Weight.least
  omega

/-- Passing tickets never leads down. -/
theorem le_passed {before : Int} (small : before ≤ Weight.greatest) (weights : List Int) :
    before ≤ passed before weights := by
  induction weights generalizing before with
  | nil => exact Int.le_refl _
  | cons weight rest ih =>
    exact Int.le_trans (le_saturatingAdd small) (ih (saturatingAdd_le_greatest _ _))

/-- Every ticket that is passed is held by one of the weights. -/
theorem holderFrom_some {before ticket : Int} {weights : List Int} (new : before < ticket)
    (h : ticket ≤ passed before weights) :
    ∃ index, holderFrom before ticket weights = some index ∧ index < weights.length := by
  induction weights generalizing before with
  | nil => exact absurd h (Int.not_le.mpr new)
  | cons weight rest ih =>
    rw [holderFrom]
    split
    · exact ⟨0, rfl, Nat.zero_lt_succ _⟩
    · rename_i later
      obtain ⟨index, held, bound⟩ := ih (Int.not_le.mp later) h
      exact ⟨index + 1, by rw [held]; rfl, Nat.succ_lt_succ bound⟩

/-- Where there are tickets, one of them is drawn and cast back to a weight without loss. -/
theorem draw_of_ticketed {weights : List Int} (ticketed : 0 < total weights)
    (generator : XorShift) :
    ∃ (word : UInt64) (after : XorShift),
      XorShift.draw (UInt64.ofNat (total weights).toNat) generator = .ok (word, after) ∧
      0 < word.toNat ∧ word.toNat ≤ total weights ∧ Weight.ofWord word = word.toNat ∧
      draw weights generator = .ok (holder? weights word.toNat, after) := by
  have small : total weights ≤ 2147483647 := Int.min_le_right _ _
  have pool : (UInt64.ofNat (total weights).toNat).toNat = (total weights).toNat :=
    UInt64.toNat_ofNat_of_lt' (by simp only [UInt64.size]; omega)
  have nonzero : UInt64.ofNat (total weights).toNat ≠ 0 := by
    intro zero
    have := congrArg UInt64.toNat zero
    rw [pool] at this
    have : (total weights).toNat = 0 := this
    omega
  obtain ⟨word, after, drawn⟩ := XorShift.draw_ok nonzero generator
  obtain ⟨least, greatest⟩ := XorShift.draw_bounds drawn
  rw [pool] at greatest
  -- The total is a weight, so the ticket is too small to become negative.
  have cast : Weight.ofWord word = word.toNat := by
    unfold Weight.ofWord
    exact Int.bmod_eq_of_le (by omega) (by omega)
  refine ⟨word, after, drawn, least, by omega, cast, ?_⟩
  rw [draw, if_neg (Int.not_le.mpr ticketed), drawn]
  exact congrArg (fun ticket => Except.ok (holder? weights ticket, after)) cast

/-- A draw among weights of which the first holds a ticket has a winner. -/
theorem draw_some {weight : Int} (ticketed : 0 < weight) (rest : List Int)
    (generator : XorShift) :
    ∃ index after, draw (weight :: rest) generator = .ok (some index, after) ∧
      index < (weight :: rest).length := by
  have positive : 0 < total (weight :: rest) := by
    have first : 0 < Weight.saturatingAdd 0 (tickets weight) := by
      unfold Weight.saturatingAdd tickets Weight.greatest Weight.least
      omega
    have := le_passed (saturatingAdd_le_greatest 0 (tickets weight)) rest
    exact Int.lt_min.mpr ⟨Int.lt_of_lt_of_le first this, by decide⟩
  have passes : total (weight :: rest) ≤ passed 0 (weight :: rest) := Int.min_le_left _ _
  obtain ⟨word, after, -, least, greatest, -, drawn⟩ := draw_of_ticketed positive generator
  obtain ⟨index, held, bound⟩ :=
    holderFrom_some (show (0 : Int) < word.toNat by omega)
      (show (word.toNat : Int) ≤ passed 0 (weight :: rest) by omega)
  refine ⟨index, after, ?_, bound⟩
  rw [drawn]
  exact congrArg (fun index => Except.ok (index, after)) held

end Lottery

end Turnstile
