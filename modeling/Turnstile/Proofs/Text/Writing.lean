import Turnstile.Proofs.Text.Words

/-!
# Words and numerals written down

The other direction: a text is written from words that stand apart, and a numeral from a number.

* **`spaced`** writes words one after another, each with a gap of its own to the next. A text
  written so is made of these words, whatever the gaps (`spells_spaced`), and whatever blanks stand
  in front of it (`Spells.blanks_append`) and behind it (`Spells.append_blanks`).
* **`numeral`** writes a number in the decimal system, with zeros in front and a plus sign
  if that is asked for. It is a numeral of this number (`numeral_numeral`) and of no other
  (`Numeral.unique`).
-/

namespace Turnstile.Text

variable {text : List Char} {spelled : List (List Char)} {n : Nat}

/-! ## Words -/

theorem isWord_iff {word : List Char} :
    IsWord word ↔ word ≠ [] ∧ (word.all fun c => !isBlank c) = true := by
  simp only [List.all_eq_true, Bool.not_eq_true']
  exact ⟨fun isWord => ⟨isWord.nonempty, isWord.solid⟩, fun h => ⟨h.1, h.2⟩⟩

instance (word : List Char) : Decidable (IsWord word) := decidable_of_iff _ isWord_iff.symm

/-- What stands between two words. -/
structure Gap where
  blanks : List Char
  nonempty : blanks ≠ []
  blank : blanks.all isBlank = true

/-- Words one after another, with the gap of each of them to the next. -/
def spaced (gap : Nat → Gap) : List (List Char) → List Char
  | [] => []
  | [word] => word
  | word :: next :: rest => word ++ (gap 0).blanks ++ spaced (fun i => gap (i + 1)) (next :: rest)

namespace Spells

theorem blanks_append {blanks : List Char} (blank : blanks.all isBlank = true)
    (spells : Spells spelled text) : Spells spelled (blanks ++ text) := by
  induction blanks with
  | nil => exact spells
  | cons c rest ih =>
    obtain ⟨here, later⟩ := Bool.and_eq_true_iff.mp blank
    exact .blank here (ih later)

theorem append_blanks {blanks : List Char} (blank : blanks.all isBlank = true)
    (spells : Spells spelled text) : Spells spelled (text ++ blanks) := by
  cases blanks with
  | nil => rwa [List.append_nil]
  | cons c rest =>
    obtain ⟨here, later⟩ := Bool.and_eq_true_iff.mp blank
    have none : Spells [] (rest ++ []) := .blanks_append later .nil
    rw [List.append_nil] at none
    simpa using spells.append here none

end Spells

theorem spells_spaced (gap : Nat → Gap) (areWords : ∀ word ∈ spelled, IsWord word) :
    Spells spelled (spaced gap spelled) := by
  fun_induction spaced gap spelled with
  | case1 gap => exact .nil
  | case2 gap word => exact .last (areWords word List.mem_cons_self)
  | case3 gap word next rest ih =>
    obtain ⟨isWord, areWords⟩ := List.forall_mem_cons.mp areWords
    obtain ⟨blanks, nonempty, blank⟩ := gap 0
    cases blanks with
    | nil => exact absurd rfl nonempty
    | cons c blanks =>
      obtain ⟨here, later⟩ := Bool.and_eq_true_iff.mp blank
      rw [List.append_assoc]
      exact .word isWord here ((ih areWords).blanks_append later)

/-! ## Numerals -/

/-- The number in decimal digits, behind some zeros and perhaps a plus sign. -/
def numeral (plus : Bool) (zeros n : Nat) : List Char :=
  (if plus then ['+'] else []) ++ (List.replicate zeros '0' ++ n.repr.toList)

theorem numeral_numeral (plus : Bool) (zeros n : Nat) : Numeral (numeral plus zeros n) n := by
  refine ⟨List.replicate zeros '0' ++ n.repr.toList, ?_, ?_, ?_, ?_⟩
  · cases plus with
    | false => exact .inl rfl
    | true => exact .inr rfl
  · rw [Nat.toList_repr]
    exact List.append_ne_nil_of_right_ne_nil _ Nat.toDigits_ne_nil
  · intro c mem
    rw [Nat.toList_repr] at mem
    rcases List.mem_append.mp mem with zero | digit
    · rw [List.eq_of_mem_replicate zero]
      rfl
    · exact Nat.isDigit_of_mem_toDigits (by decide) (by decide) digit
  · rw [Nat.toList_repr, Nat.ofDigitChars_append, Nat.ofDigitChars_replicate_zero, Nat.mul_zero,
      Nat.ofDigitChars_ten_toDigits]

/-- A numeral stands for one number. -/
theorem Numeral.unique {m : Nat} (stands : Numeral text n) (stands' : Numeral text m) : n = m :=
  Option.some.inj ((numeral?_eq_some_iff.mpr stands).symm.trans (numeral?_eq_some_iff.mpr stands'))

theorem isBlank_of_isDigit {c : Char} (digit : c.isDigit = true) : isBlank c = false := by
  have bounds : 48 ≤ c.toNat ∧ c.toNat ≤ 57 := by
    simp only [Char.isDigit, Bool.and_eq_true, decide_eq_true_eq] at digit
    exact digit
  have apart : ∀ range ∈ Blank.ranges, range.2 < 48 ∨ 57 < range.1 := by decide
  rw [isBlank, List.any_eq_false]
  intro range mem within
  simp only [Bool.and_eq_true, decide_eq_true_eq] at within
  have := apart range mem
  omega

/-- There is no blank in a numeral. -/
theorem Numeral.solid (stands : Numeral text n) : ∀ c ∈ text, isBlank c = false := by
  obtain ⟨digits, written, -, all, -⟩ := stands
  have solid : ∀ c ∈ digits, isBlank c = false := fun c mem => isBlank_of_isDigit (all c mem)
  rcases written with rfl | rfl
  · exact solid
  · exact List.forall_mem_cons.mpr ⟨by decide, solid⟩

end Turnstile.Text
