import Mathlib.Data.Set.Function
import Mathlib.Dynamics.PeriodicPts.Lemmas
import Turnstile.Proofs.Random.Cycle

/-!
# The way of a generator

The words that a generator gives one after another are its orbit under the step. Whatever is done
with the generator, it goes along this orbit, as many words as the uses take
(`XorShift.Takes.state_eq`). So all that is known of the step is known of generators in use.

* **`Takes.injective`**: two generators that have given equally many words stand at the same word
  only if they have always done so.
* **`exists_period`**: the words come round, and the first of them is among those that do.
* **`never_collapses`**: all of it, for generators that seeds lead to.
-/

namespace Turnstile.XorShift

variable {word : UInt64} {generator after : XorShift} {uses : List Use} {words : Nat}

/-! ## Words taken -/

/-- A generator stands at the last of the words that have been taken. -/
theorem Takes.state_eq (takes : Takes generator uses words after) :
    after.state = step^[words] generator.state := by
  induction takes with
  | nil generator => rfl
  | next rest ih => rw [ih, Function.iterate_succ_apply]
  | draw nonzero stops rest ih => rw [ih, Function.iterate_add_apply]

/-- What generators come to after equally many words tells them apart as well as what they were. -/
theorem Takes.injective {other after' : XorShift} {uses' : List Use}
    (takes : Takes generator uses words after) (takes' : Takes other uses' words after')
    (same : after = after') : generator = other := by
  -- Both have gone as far along an orbit, and the step is injective.
  have met : step^[words] generator.state = step^[words] other.state := by
    rw [← takes.state_eq, ← takes'.state_eq, same]
  have began : generator.state = other.state := step_injective.iterate words met
  cases generator
  cases other
  exact congrArg mk began

/-! ## Coming round -/

/-- The words that are not zero are permuted among themselves. -/
theorem step_bijOn : Set.BijOn step {0}ᶜ {0}ᶜ := by
  refine ⟨fun word nonzero => mt step_eq_zero_iff.mp nonzero, step_injective.injOn,
    fun word nonzero => ?_⟩
  obtain ⟨before, rfl⟩ := step_bijective.surjective word
  exact ⟨before, mt step_eq_zero_iff.mpr nonzero, rfl⟩

theorem iterate_step_ne_zero (nonzero : word ≠ 0) (words : Nat) : step^[words] word ≠ 0 :=
  step_bijOn.mapsTo.iterate words nonzero

/-- The words that come one after another from some word on come round to this word, and so to each
of them after equally many words. -/
theorem exists_period (word : UInt64) :
    ∃ period, 0 < period ∧ ∀ words, step^[words + period] word = step^[words] word := by
  obtain ⟨period, positive, round⟩ :=
    Function.mem_periodicPts.mp (step_injective.mem_periodicPts word)
  refine ⟨period, positive, fun words => ?_⟩
  rw [Function.iterate_add_apply]
  exact congrArg step^[words] round

/-- Whatever the seed, and whatever is done with the generator short of drawing from an empty pool,
it goes along its orbit and does not come to stand at zero, nor is any of the words on the way zero.
The step permutes all words and leaves zero in place, so it permutes the others among themselves.
Two generators that stand at different words stand at different words whenever they have given
equally many, and the words that a seed gives come round to the one that it begins with. -/
theorem never_collapses :
    (∀ (seed : UInt64) (uses : List Use), .draw 0 ∉ uses → ∃ words generator,
      (ofSeed seed).used uses = .ok generator ∧ Takes (ofSeed seed) uses words generator ∧
      generator.state = step^[words] (ofSeed seed).state ∧ generator.state ≠ 0) ∧
    (∀ (seed : UInt64) (words : Nat), step^[words] (ofSeed seed).state ≠ 0) ∧
    (Function.Bijective step ∧ step 0 = 0 ∧ Set.BijOn step {0}ᶜ {0}ᶜ) ∧
    (∀ (a b a' b' : XorShift) (uses uses' : List Use) (words : Nat),
      Takes a uses words a' → Takes b uses' words b' → a ≠ b → a' ≠ b') ∧
    (∀ seed : UInt64, ∃ period, 0 < period ∧
      ∀ words, step^[words + period] (ofSeed seed).state = step^[words] (ofSeed seed).state) := by
  have nonzero : ∀ (seed : UInt64) (words : Nat), step^[words] (ofSeed seed).state ≠ 0 :=
    fun seed => iterate_step_ne_zero (reached_ofSeed seed).state_ne_zero
  refine ⟨fun seed uses fair => ?_, nonzero, ⟨step_bijective, step_zero, step_bijOn⟩,
    fun a b a' b' uses uses' words takes takes' => mt (takes.injective takes'),
    fun seed => exists_period (ofSeed seed).state⟩
  obtain ⟨words, generator, takes⟩ := exists_takes fair (ofSeed seed)
  exact ⟨words, generator, takes.used_eq, takes, takes.state_eq,
    takes.state_eq ▸ nonzero seed words⟩

/-- The generators of seeds 0 and 1 after two words each. -/
theorem never_collapses_twice :
    ∃ a b : XorShift, (ofSeed 0).used [.next, .draw 5] = .ok a ∧ a.state ≠ 0 ∧
      (ofSeed 1).used [.draw 7, .next] = .ok b ∧ a ≠ b := by
  obtain ⟨stands, -, -, apart, -⟩ := never_collapses
  obtain ⟨words, a, used, -, -, nonzero⟩ := stands 0 [.next, .draw 5] (by decide)
  have at_once : ∀ {limit : UInt64} {generator : XorShift}, step generator.state < limit →
      StopsAfter limit generator 1 := fun below =>
    ⟨Nat.one_pos, fun earlier some before => absurd some (by omega), below⟩
  have takes : Takes (ofSeed 0) [.next, .draw 5] 2 _ :=
    .next (.draw (by decide) (at_once (by decide)) (.nil _))
  have takes' : Takes (ofSeed 1) [.draw 7, .next] 2 _ :=
    .draw (by decide) (at_once (by decide)) (.next (.nil _))
  cases used.symm.trans takes.used_eq
  exact ⟨_, _, used, nonzero, takes'.used_eq, apart _ _ _ _ _ _ _ takes takes' (by decide)⟩

end Turnstile.XorShift
