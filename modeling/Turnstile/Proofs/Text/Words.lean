import Turnstile.Text.Words

/-!
# What words and numerals are

How text is taken apart, said from the other end.

* **`Spells`**: a text is made of words if they stand in it one after another, with a blank at least
  between two of them and any blanks around. Every text is made of one list of words and no other,
  and `words` finds it (`spells_iff`). With a blank between them, two texts are made of the words of
  both (`Spells.append`).
* **`splitAt?_eq_some_iff`**: a word is cut where the mark stands first.
* **`Numeral`**: a numeral is a run of digits, perhaps after a plus sign, and stands for its value
  in the decimal system, of whatever size it is (`numeral?_eq_some_iff`).
-/

namespace Turnstile.Text

variable {text : List Char} {c mark : Char} {spelled more : List (List Char)}

/-! ## Words -/

/-- A word is not empty and has no blank in it. -/
structure IsWord (word : List Char) : Prop where
  nonempty : word ≠ []
  solid : ∀ c ∈ word, isBlank c = false

/-- A text is made of words. -/
inductive Spells : List (List Char) → List Char → Prop
  | nil : Spells [] []
  | blank {words : List (List Char)} {text : List Char} {c : Char} (blank : isBlank c = true)
    (rest : Spells words text) : Spells words (c :: text)
  | last {word : List Char} (isWord : IsWord word) : Spells [word] word
  | word {words : List (List Char)} {word text : List Char} {c : Char} (isWord : IsWord word)
    (blank : isBlank c = true) (rest : Spells words text) :
    Spells (word :: words) (word ++ c :: text)

theorem pieces_of_solid (solid : ∀ c ∈ text, isBlank c = false) : pieces text = [text] := by
  induction text with
  | nil => rfl
  | cons c rest ih =>
    have here : isBlank c = false := solid c (by simp)
    rw [pieces, ih fun c mem => solid c (by simp [mem])]
    simp [here]

theorem pieces_append {word : List Char} (solid : ∀ c ∈ word, isBlank c = false)
    (blank : isBlank c = true) : pieces (word ++ c :: text) = word :: pieces text := by
  induction word with
  | nil => simp [pieces, blank]
  | cons d rest ih =>
    have here : isBlank d = false := solid d (by simp)
    rw [List.cons_append, pieces, ih fun c mem => solid c (by simp [mem])]
    simp [here]

namespace Spells

theorem words_eq (spells : Spells spelled text) : words text = spelled := by
  induction spells with
  | nil => rfl
  | blank blank _ ih =>
    rw [← ih, words, words, pieces, if_pos blank]
    rfl
  | last isWord => simp [words, pieces_of_solid isWord.solid, isWord.nonempty]
  | word isWord blank _ ih =>
    rw [← ih, words, pieces_append isWord.solid blank]
    simp [words, isWord.nonempty]

/-- A character that is not blank begins a word, or lengthens the first one. -/
theorem lengthen (spells : Spells spelled text) (solid : isBlank c = false) :
    ∃ words, Spells words (c :: text) := by
  have alone : IsWord [c] := ⟨by simp, by simpa using solid⟩
  have longer : ∀ {word : List Char}, IsWord word → IsWord (c :: word) := fun isWord =>
    ⟨by simp, by simpa using ⟨solid, isWord.solid⟩⟩
  cases spells with
  | nil => exact ⟨_, .last alone⟩
  | blank blank rest => exact ⟨_, .word alone blank rest⟩
  | last isWord => exact ⟨_, .last (longer isWord)⟩
  | word isWord blank rest => exact ⟨_, .word (longer isWord) blank rest⟩

theorem append {other : List Char} (first : Spells spelled text) (blank : isBlank c = true)
    (second : Spells more other) : Spells (spelled ++ more) (text ++ c :: other) := by
  induction first with
  | nil => exact .blank blank second
  | blank blank' _ ih => exact .blank blank' ih
  | last isWord => exact .word isWord blank second
  | word isWord blank' _ ih =>
    rw [List.append_assoc]
    exact .word isWord blank' ih

end Spells

theorem exists_spells (text : List Char) : ∃ words, Spells words text := by
  induction text with
  | nil => exact ⟨_, .nil⟩
  | cons c rest ih =>
    obtain ⟨words, spells⟩ := ih
    cases blank : isBlank c with
    | true => exact ⟨words, .blank blank spells⟩
    | false => exact spells.lengthen blank

/-- The words of a text are the ones that it is made of. -/
theorem spells_iff : Spells spelled text ↔ words text = spelled := by
  refine ⟨Spells.words_eq, ?_⟩
  rintro rfl
  obtain ⟨words, spells⟩ := exists_spells text
  rwa [spells.words_eq]

/-! ## Cutting at a mark -/

theorem splitAt?_eq_some_iff {before after : List Char} :
    splitAt? mark text = some (before, after) ↔ text = before ++ mark :: after ∧ mark ∉ before := by
  induction text generalizing before with
  | nil => simp [splitAt?]
  | cons c rest ih =>
    unfold splitAt?
    by_cases here : c = mark
    · subst here
      cases before with
      | nil => simp
      | cons d before =>
        simp only [if_true, Option.some.injEq, Prod.mk.injEq, List.cons_append, List.cons.injEq]
        constructor
        · rintro ⟨empty, -⟩
          cases empty
        · rintro ⟨⟨rfl, -⟩, off⟩
          exact absurd List.mem_cons_self off
    · cases before with
      | nil => simp [here]
      | cons d before =>
        simp only [if_neg here, Option.map_eq_some_iff, List.cons_append, List.cons.injEq,
          List.mem_cons,
          not_or]
        constructor
        · rintro ⟨⟨_, _⟩, found, same⟩
          cases same
          obtain ⟨rfl, off⟩ := ih.mp found
          exact ⟨⟨rfl, rfl⟩, Ne.symm here, off⟩
        · rintro ⟨⟨rfl, rfl⟩, -, off⟩
          exact ⟨(before, after), ih.mpr ⟨rfl, off⟩, rfl⟩

/-! ## Numerals -/

/-- A run of digits, perhaps after a plus sign, and what it stands for. -/
def Numeral (text : List Char) (n : Nat) : Prop :=
  ∃ digits : List Char, (text = digits ∨ text = '+' :: digits) ∧ digits ≠ [] ∧
    (∀ c ∈ digits, c.isDigit = true) ∧ n = Nat.ofDigitChars 10 digits 0

theorem digit?_eq_some_iff {d : Nat} :
    digit? c = some d ↔ c.isDigit = true ∧ d = c.toNat - '0'.toNat := by
  have digits : ('0' ≤ c ∧ c ≤ '9') ↔ c.isDigit = true := by
    simp only [Char.isDigit, Bool.and_eq_true, decide_eq_true_eq]
    exact Iff.rfl
  unfold digit?
  by_cases digit : c.isDigit = true
  · rw [if_pos (digits.mpr digit)]
    exact ⟨fun same => ⟨digit, (Option.some.inj same).symm⟩, fun h => congrArg some h.2.symm⟩
  · rw [if_neg (mt digits.mp digit)]
    exact ⟨fun none => absurd none (by simp), fun h => absurd h.1 digit⟩

theorem digitsFrom_eq_some_iff {high n : Nat} : digitsFrom high text = some n ↔
    (∀ c ∈ text, c.isDigit = true) ∧ n = Nat.ofDigitChars 10 text high := by
  induction text generalizing high with
  | nil =>
    exact ⟨fun same => ⟨by simp, (Option.some.inj same).symm⟩, fun h => congrArg some h.2.symm⟩
  | cons c rest ih =>
    rw [digitsFrom, Option.bind_eq_some_iff, Nat.ofDigitChars_cons]
    simp only [digit?_eq_some_iff, ih, List.mem_cons, forall_eq_or_imp]
    constructor
    · rintro ⟨_, ⟨digit, rfl⟩, digits, rfl⟩
      rw [Nat.mul_comm]
      exact ⟨⟨digit, digits⟩, rfl⟩
    · rintro ⟨⟨digit, digits⟩, rfl⟩
      rw [Nat.mul_comm]
      exact ⟨_, ⟨digit, rfl⟩, digits, rfl⟩

theorem digits?_eq_some_iff {n : Nat} : digits? text = some n ↔
    text ≠ [] ∧ (∀ c ∈ text, c.isDigit = true) ∧ n = Nat.ofDigitChars 10 text 0 := by
  unfold digits?
  split
  · rename_i empty
    exact ⟨fun none => absurd none (by simp), fun h => absurd empty h.1⟩
  · rename_i nonempty
    rw [digitsFrom_eq_some_iff]
    exact ⟨fun h => ⟨nonempty, h⟩, And.right⟩

/-- A text is read as a number just if it is a numeral that stands for it. -/
theorem numeral?_eq_some_iff {n : Nat} : numeral? text = some n ↔ Numeral text n := by
  unfold numeral?
  split
  · rename_i rest
    rw [digits?_eq_some_iff]
    constructor
    · exact fun h => ⟨rest, .inr rfl, h⟩
    · rintro ⟨digits, rfl | same, nonempty, all, value⟩
      · exact absurd (all '+' (by simp)) (by decide)
      · cases same
        exact ⟨nonempty, all, value⟩
  · rename_i unsigned
    rw [digits?_eq_some_iff]
    constructor
    · exact fun h => ⟨text, .inl rfl, h⟩
    · rintro ⟨digits, rfl | same, nonempty, all, value⟩
      · exact ⟨nonempty, all, value⟩
      · exact absurd same (unsigned digits)

end Turnstile.Text
