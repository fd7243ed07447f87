import Mathlib.Data.Nat.Find
import Mathlib.Tactic.IntervalCases
import Turnstile.Proofs.Random.Tickets
import Turnstile.Trial

/-!
# Draws come to an end

A search that is not bounded tries the words of a generator one after another until one
lies below the limit. It stops after `tries` words if that is where the first such word
stands (`XorShift.StopsAfter`). Whatever the generator, a search below a zone stops
(`stopsAfter_zone`), and a draw, although it gives up after `patience` words, is the same
search (`firstBelow_of_stopsAfter`).

Uses in a row take some number of words (`XorShift.Takes`). They lead to where the last of
these words stands, and they can all be made unless one of them draws from an empty pool
(`exists_takes`, `Takes.used_eq`).

`draw_ends` says this of every generator that a seed and uses lead to.
-/

namespace Turnstile.XorShift

/-- The generator after uses in a row, if none of them fails. -/
def used (generator : XorShift) : List Use → Except Violation XorShift
  | [] => .ok generator
  | use :: rest => do
    let (_, after) ← generator.use use
    after.used rest

/-- The first word below `limit` is the one at `tries`, counted from 1. -/
structure StopsAfter (limit : UInt64) (generator : XorShift) (tries : Nat) : Prop where
  some : 0 < tries
  above : ∀ earlier, 0 < earlier → earlier < tries → limit ≤ step^[earlier] generator.state
  below : step^[tries] generator.state < limit

variable {limit upper : UInt64} {generator : XorShift} {tries : Nat}

/-- Some word of 65 in a row lies below the zone, so a search comes to the first of them. -/
theorem stopsAfter_zone (nonzero : upper ≠ 0) (generator : XorShift) :
    ∃ tries ≤ patience, StopsAfter (zone upper) generator tries := by
  obtain ⟨index, bound, clear⟩ := exists_top_clear (step generator.state)
  -- a word with a clear top bit is below the zone, and the first word that is stands no later
  have found : ∃ index, step^[index + 1] generator.state < zone upper :=
    ⟨index, UInt64.lt_of_lt_of_le clear (top_le_zone nonzero)⟩
  have least : Nat.find found ≤ index :=
    Nat.find_min' found (UInt64.lt_of_lt_of_le clear (top_le_zone nonzero))
  refine ⟨Nat.find found + 1, Nat.lt_of_le_of_lt least bound, Nat.succ_pos _, ?_,
    Nat.find_spec found⟩
  intro earlier some before
  obtain ⟨earlier, rfl⟩ := Nat.exists_eq_succ_of_ne_zero (Nat.ne_of_gt some)
  exact UInt64.not_lt.mp (Nat.find_min found (Nat.lt_of_succ_lt_succ before))

/-- There is only one first word below the limit. -/
theorem StopsAfter.unique {other : Nat} (stops : StopsAfter limit generator tries)
    (stops' : StopsAfter limit generator other) : tries = other := by
  rcases Nat.lt_trichotomy tries other with sooner | same | later
  · exact absurd stops.below (UInt64.not_lt.mpr (stops'.above tries stops.some sooner))
  · exact same
  · exact absurd stops'.below (UInt64.not_lt.mpr (stops.above other stops'.some later))

/-- A search that is given enough tries is the search without a bound. -/
theorem firstBelow_of_stopsAfter {bound : Nat} (stops : StopsAfter limit generator tries)
    (enough : tries ≤ bound) : firstBelow limit bound generator =
      Option.some (step^[tries] generator.state, ⟨step^[tries] generator.state⟩) := by
  induction bound generalizing generator tries with
  | zero => exact absurd stops.some (Nat.not_lt.mpr enough)
  | succ bound ih =>
    obtain ⟨later, rfl⟩ := Nat.exists_eq_add_of_lt stops.some
    rw [Nat.zero_add] at stops enough ⊢
    rw [firstBelow]
    cases later with
    | zero =>
      have hit : generator.next.1 < limit := stops.below
      rw [if_pos hit]
      rfl
    | succ later =>
      have miss : limit ≤ generator.next.1 := stops.above 1 (by omega) (by omega)
      rw [if_neg (UInt64.not_lt.mpr miss)]
      refine @ih generator.next.2 (later + 1) ⟨Nat.succ_pos _, ?_, stops.below⟩ (by omega)
      intro earlier some before
      exact stops.above (earlier + 1) (Nat.succ_pos _) (by omega)

theorem draw_of_stopsAfter (nonzero : upper ≠ 0) (stops : StopsAfter (zone upper) generator tries)
    (enough : tries ≤ patience) : draw upper generator =
      .ok (share upper (step^[tries] generator.state), ⟨step^[tries] generator.state⟩) := by
  rw [draw, if_neg nonzero, firstBelow_of_stopsAfter stops enough]

/-! ## Uses in a row -/

/-- Uses in a row, the number of words that they take in all, and what they lead to: the next word
is one, and a draw takes all that it tries. -/
inductive Takes : XorShift → List Use → (words : Nat) → XorShift → Prop
  | nil (generator : XorShift) : Takes generator [] 0 generator
  | next {generator after : XorShift} {uses : List Use} {words : Nat}
    (rest : Takes ⟨step generator.state⟩ uses words after) :
    Takes generator (.next :: uses) (words + 1) after
  | draw {generator after : XorShift} {uses : List Use} {words tries : Nat} {upper : UInt64}
    (nonzero : upper ≠ 0) (stops : StopsAfter (zone upper) generator tries)
    (rest : Takes ⟨step^[tries] generator.state⟩ uses words after) :
    Takes generator (.draw upper :: uses) (words + tries) after

section

variable {after : XorShift} {uses : List Use} {words : Nat}

theorem Takes.used_eq (takes : Takes generator uses words after) :
    generator.used uses = .ok after := by
  induction takes with
  | nil generator => rfl
  | next rest ih => exact ih
  | @draw generator after uses words tries upper nonzero stops rest ih =>
    obtain ⟨least, enough, first⟩ := stopsAfter_zone nonzero generator
    obtain rfl := first.unique stops
    rw [used, use, draw_of_stopsAfter nonzero stops enough]
    exact ih

/-- Uses that do not draw from an empty pool take words. -/
theorem exists_takes (fair : .draw 0 ∉ uses) (generator : XorShift) :
    ∃ words after, Takes generator uses words after := by
  induction uses generalizing generator with
  | nil => exact ⟨0, generator, .nil generator⟩
  | cons use rest ih =>
    obtain ⟨here, later⟩ := not_or.mp (mt List.mem_cons.mpr fair)
    cases use with
    | next =>
      obtain ⟨words, after, takes⟩ := ih later ⟨step generator.state⟩
      exact ⟨_, after, .next takes⟩
    | draw upper =>
      have nonzero : upper ≠ 0 := fun zero => here (by rw [zero])
      obtain ⟨tries, -, stops⟩ := stopsAfter_zone nonzero generator
      obtain ⟨words, after, takes⟩ := ih later ⟨step^[tries] generator.state⟩
      exact ⟨_, after, .draw nonzero stops takes⟩

/-- Uses that do not draw from an empty pool can all be made. -/
theorem used_ok (fair : ∀ use ∈ uses, use ≠ .draw 0) (generator : XorShift) :
    ∃ after, generator.used uses = .ok after := by
  obtain ⟨words, after, takes⟩ := exists_takes (fun empty => fair _ empty rfl) generator
  exact ⟨after, takes.used_eq⟩

end

/-- Whatever the seed and whatever was done with the generator, a draw ends: some word that the
generator would give lies below the zone, and the draw gives what the first of them stands for, a
number from 1 to `upper`. -/
theorem draw_ends {uses : List Use} (fair : ∀ use ∈ uses, use ≠ .draw 0) (seed : UInt64) :
    ∃ generator, (ofSeed seed).used uses = .ok generator ∧ ∀ upper, upper ≠ 0 →
      ∃ tries ≤ patience, StopsAfter (zone upper) generator tries ∧
        draw upper generator =
          .ok (share upper (step^[tries] generator.state), ⟨step^[tries] generator.state⟩) ∧
        1 ≤ (share upper (step^[tries] generator.state)).toNat ∧
        (share upper (step^[tries] generator.state)).toNat ≤ upper.toNat := by
  obtain ⟨generator, reached⟩ := used_ok fair (ofSeed seed)
  refine ⟨generator, reached, fun upper nonzero => ?_⟩
  obtain ⟨tries, enough, stops⟩ := stopsAfter_zone nonzero generator
  have drawn := draw_of_stopsAfter nonzero stops enough
  exact ⟨tries, enough, stops, drawn, draw_bounds drawn⟩

/-- Nearly half of all words stand for none of the numbers up to 2^63 + 1. After a word and a draw
of seed 1 the next six are such, and the seventh is not. -/
theorem draw_ends_at_seventh :
    (ofSeed 1).used [.next, .draw 5] = .ok ⟨0x100041060c011441⟩ ∧
      StopsAfter (zone 0x8000000000000001) ⟨0x100041060c011441⟩ 7 ∧
      draw 0x8000000000000001 ⟨0x100041060c011441⟩ =
        .ok (9024654201992055040, ⟨9024654201992055039⟩) := by
  obtain ⟨generator, reached, ends⟩ := @draw_ends [.next, .draw 5] (by decide) 1
  have same : (ofSeed 1).used [.next, .draw 5] = .ok ⟨0x100041060c011441⟩ := rfl
  cases reached.symm.trans same
  obtain ⟨tries, enough, stops, drawn, -⟩ := ends 0x8000000000000001 (by decide)
  have seventh : StopsAfter (zone 0x8000000000000001) ⟨0x100041060c011441⟩ 7 := by
    refine ⟨by decide, ?_, by decide⟩
    intro earlier some before
    interval_cases earlier <;> decide
  obtain rfl := stops.unique seventh
  exact ⟨same, seventh, drawn⟩

end Turnstile.XorShift
