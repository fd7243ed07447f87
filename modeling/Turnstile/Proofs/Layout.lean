import Turnstile.Proofs.Settings
import Turnstile.Proofs.Text.Writing

/-!
# Configurations on a line

A configuration is written on a command line as two arguments, one for the policy and one
for the seed, among arguments for others (`Config.Layout`). Neither these others nor the
gaps between arguments nor the order of the two make a difference: the line is read back as
the configuration (`Config.round_trips`).

A seed argument with a numeral of 2^64 or more is bad wherever it stands, and so is the line if no
argument before it is (`Config.fails_of_great_seed`).
-/

namespace Turnstile

open Text

namespace Setting

variable {argument value : List Char} {policy : Policy}

/-! ## Arguments -/

/-- The argument that gives a policy. -/
def policyArgument (policy : Policy) : List Char := policyKey ++ '=' :: policy.name.toList

/-- The argument that gives a seed as it is written. -/
def seedArgument (value : List Char) : List Char := seedKey ++ '=' :: value

theorem gives_seedArgument (value : List Char) : Gives (seedArgument value) seedKey value :=
  ⟨rfl, by decide⟩

theorem isWord_policyArgument (policy : Policy) : IsWord (policyArgument policy) := by
  cases policy <;> decide

theorem isWord_seedArgument (solid : ∀ c ∈ value, isBlank c = false) :
    IsWord (seedArgument value) := by
  have key : IsWord seedKey := by decide
  have value : ∀ c ∈ '=' :: value, isBlank c = false := List.forall_mem_cons.mpr ⟨by decide, solid⟩
  exact ⟨by simp [seedArgument], List.forall_mem_append.mpr ⟨key.solid, value⟩⟩

/-- An argument for somebody else: without an equals sign, or with another key before the
first one. -/
structure Foreign (argument : List Char) : Prop where
  isWord : IsWord argument
  elsewhere : ∀ key value, Gives argument key value → key ≠ policyKey ∧ key ≠ seedKey

theorem foreign_iff : Foreign argument ↔
    IsWord argument ∧ ∀ parts ∈ splitAt? '=' argument, parts.1 ≠ policyKey ∧ parts.1 ≠ seedKey := by
  constructor
  · rintro ⟨isWord, elsewhere⟩
    exact ⟨isWord, fun parts cut => elsewhere parts.1 parts.2 (gives_iff.mpr cut)⟩
  · rintro ⟨isWord, elsewhere⟩
    exact ⟨isWord, fun key value gives => elsewhere (key, value) (gives_iff.mp gives)⟩

instance (argument : List Char) : Decidable (Foreign argument) :=
  decidable_of_iff _ foreign_iff.symm

end Setting

namespace Config

open Setting

variable {argument value : List Char} {n : Nat}

/-! ## What each argument does -/

theorem take_foreign (foreign : Foreign argument) (config : Config) :
    config.take argument = .ok config := by
  have noPolicy : ∀ value, ¬ Gives argument policyKey value := fun value gives =>
    (foreign.elsewhere _ value gives).1 rfl
  have noSeed : ∀ value, ¬ Gives argument seedKey value := fun value gives =>
    (foreign.elsewhere _ value gives).2 rfl
  rcases ofArgument?_cases argument with ⟨value, gives, -⟩ | ⟨value, gives, -⟩ | ⟨-, -, sets⟩
  · exact absurd gives (noPolicy value)
  · exact absurd gives (noSeed value)
  · rw [take, sets]

theorem read_foreign {arguments : List (List Char)}
    (foreign : ∀ argument ∈ arguments, Foreign argument)
    (config : Config) : config.read arguments = .ok config := by
  induction arguments with
  | nil => rfl
  | cons argument rest ih =>
    obtain ⟨here, later⟩ := List.forall_mem_cons.mp foreign
    rw [read_of_ok (take_foreign here config), ih later]

theorem read_append (config : Config) (first second : List (List Char)) :
    config.read (first ++ second) = config.read first >>= fun next => next.read second :=
  List.foldlM_append

theorem take_policyArgument (config : Config) (policy : Policy) :
    config.take (policyArgument policy) = .ok (config.withPolicy policy) := by
  cases policy <;> rfl

theorem take_seedArgument (config : Config) {seed : UInt64} (stands : Numeral value seed.toNat) :
    config.take (seedArgument value) = .ok (config.withSeed seed) := by
  have sets : ofArgument? (seedArgument value) = some (.seed (String.ofList value)) := by
    rw [ofArgument?, gives_iff.mp (gives_seedArgument value)]
    rfl
  have reads : seed? (String.ofList value) = some seed := by
    rwa [seed?_eq_some_iff, String.toList_ofList]
  simp only [take, sets, apply, reads]

/-- No seed is so great. -/
theorem faulty_seedArgument (stands : Numeral value n) (great : UInt64.size ≤ n) :
    Faulty (seedArgument value) (.invalidSeed (String.ofList value)) := by
  refine .seed (gives_seedArgument value) fun seed stands' => ?_
  rw [stands.unique stands'] at great
  exact Nat.not_lt.mpr great seed.toNat_lt

theorem take_of_faulty {error : ConfigError} (faulty : Faulty argument error) (config : Config) :
    config.take argument = .error error := by
  rcases take_cases config argument with ⟨error', faulty', taken⟩ | ⟨fine, -⟩
  · rw [taken, faulty.unique faulty']
  · exact absurd faulty (fine error)

/-! ## The two arguments among others -/

/-- What stands on a line besides the two arguments of a configuration: other arguments before,
between and after them, a gap behind each argument but the last, and blanks at both ends. -/
structure Layout where
  before : List (List Char)
  between : List (List Char)
  after : List (List Char)
  lead : List Char
  trail : List Char
  gap : Nat → Gap
  foreign_before : ∀ argument ∈ before, Foreign argument
  foreign_between : ∀ argument ∈ between, Foreign argument
  foreign_after : ∀ argument ∈ after, Foreign argument
  blank_lead : lead.all isBlank = true
  blank_trail : trail.all isBlank = true

namespace Layout

variable (layout : Layout) {first second : List Char}

/-- All arguments of the line in their order. -/
def arguments (first second : List Char) : List (List Char) :=
  layout.before ++ first :: (layout.between ++ second :: layout.after)

/-- The line with these two arguments in their places. -/
def line (first second : List Char) : String :=
  String.ofList (layout.lead ++ spaced layout.gap (layout.arguments first second) ++ layout.trail)

section

variable (isFirst : IsWord first) (isSecond : IsWord second)
include isFirst isSecond

theorem isWord_of_mem : ∀ word ∈ layout.arguments first second, IsWord word :=
  List.forall_mem_append.mpr ⟨fun _ mem => (layout.foreign_before _ mem).isWord,
    List.forall_mem_cons.mpr ⟨isFirst,
      List.forall_mem_append.mpr ⟨fun _ mem => (layout.foreign_between _ mem).isWord,
        List.forall_mem_cons.mpr ⟨isSecond, fun _ mem => (layout.foreign_after _ mem).isWord⟩⟩⟩⟩

theorem spells_line : Spells (layout.arguments first second) (layout.line first second).toList := by
  rw [line, String.toList_ofList]
  have spaced := spells_spaced layout.gap (layout.isWord_of_mem isFirst isSecond)
  exact (spaced.blanks_append layout.blank_lead).append_blanks layout.blank_trail

/-- What else stands on the line makes no difference. -/
theorem ofCommandLine_line : ofCommandLine (layout.line first second) =
    default.take first >>= fun config => config.take second := by
  rw [ofCommandLine, override_eq, (layout.spells_line isFirst isSecond).words_eq]
  -- The line falls into five parts, which are read one after another, and three of them
  -- change nothing.
  rw [arguments, read_append, read_foreign layout.foreign_before default]
  show default.read (first :: _) = _
  cases taken : default.take first with
  | error error => exact read_of_error taken
  | ok next =>
    rw [read_of_ok taken, read_append, read_foreign layout.foreign_between next]
    show next.read (second :: layout.after) = next.take second
    cases taken : next.take second with
    | error error => exact read_of_error taken
    | ok last => rw [read_of_ok taken, read_foreign layout.foreign_after last]

end

end Layout

/-- A numeral that is too great for a seed is the error of the line, if no argument before
it is bad. -/
theorem fails_of_great_seed {line : String} {before after : List (List Char)}
    (stands : Numeral value n)
    (great : UInt64.size ≤ n) (spells : Spells (before ++ seedArgument value :: after) line.toList)
    (fine : ∀ other ∈ before, ∀ error, ¬ Faulty other error) :
    ofCommandLine line = .error (.invalidSeed (String.ofList value)) := by
  rw [ofCommandLine, override_eq, spells.words_eq, read_fails_iff]
  exact ⟨before, seedArgument value, after, rfl, fine, faulty_seedArgument stands great⟩

/-- Configurations are read back from where they are written. Whatever stands on the line for
others, whatever gaps there are and whichever of the two arguments comes first, a line with the name
of the policy and the decimal numeral of the seed, behind any number of zeros and perhaps a plus
sign, is read as exactly this configuration. A numeral of 2^64 or more is an invalid seed on all
such lines, and on any other if nothing before it is bad. -/
theorem round_trips :
    (∀ (layout : Layout) (config : Config) (plus : Bool) (zeros : Nat),
      ofCommandLine (layout.line (policyArgument config.policy)
        (seedArgument (numeral plus zeros config.seed.toNat))) = .ok config ∧
      ofCommandLine (layout.line (seedArgument (numeral plus zeros config.seed.toNat))
        (policyArgument config.policy)) = .ok config) ∧
    (∀ (layout : Layout) (policy : Policy) (value : List Char) (n : Nat),
      Numeral value n → UInt64.size ≤ n →
      ofCommandLine (layout.line (policyArgument policy) (seedArgument value)) =
        .error (.invalidSeed (String.ofList value)) ∧
      ofCommandLine (layout.line (seedArgument value) (policyArgument policy)) =
        .error (.invalidSeed (String.ofList value))) ∧
    (∀ (line : String) (before after : List (List Char)) (value : List Char) (n : Nat),
      Numeral value n → UInt64.size ≤ n →
        Spells (before ++ seedArgument value :: after) line.toList →
      (∀ other ∈ before, ∀ error, ¬ Faulty other error) →
      ofCommandLine line = .error (.invalidSeed (String.ofList value))) := by
  refine ⟨fun layout config plus zeros => ?_, fun layout policy value n stands great => ?_,
    fun line before after value n => fails_of_great_seed⟩
  · have stands := numeral_numeral plus zeros config.seed.toNat
    have isPolicy := isWord_policyArgument config.policy
    have isSeed := isWord_seedArgument stands.solid
    rw [layout.ofCommandLine_line isPolicy isSeed, layout.ofCommandLine_line isSeed isPolicy,
      take_policyArgument, take_seedArgument _ stands]
    exact ⟨take_seedArgument _ stands, take_policyArgument _ _⟩
  · have isPolicy := isWord_policyArgument policy
    have isSeed := isWord_seedArgument stands.solid
    have faulty := faulty_seedArgument stands great
    rw [layout.ofCommandLine_line isPolicy isSeed, layout.ofCommandLine_line isSeed isPolicy,
      take_policyArgument, take_of_faulty faulty]
    exact ⟨take_of_faulty faulty _, rfl⟩

/-- A line with something in every place. -/
def Layout.crowded : Layout where
  before := ["quiet".toList]
  between := ["acpi=on".toList, "sched.seeds=sched=1".toList]
  after := ["sched".toList]
  lead := []
  trail := ['\n']
  gap i := if i = 1 then ⟨[' ', '\t'], by decide, by decide⟩ else ⟨[' '], by decide, by decide⟩
  foreign_before := by decide
  foreign_between := by decide
  foreign_after := by decide
  blank_lead := by decide
  blank_trail := by decide

/-- The greatest seed among other arguments, and the number after it, there and in front of an
unknown policy. -/
theorem round_trips_crowded :
    ofCommandLine
      "quiet sched=lottery \tacpi=on sched.seeds=sched=1 sched.seed=+0018446744073709551615 sched\n"
      = .ok ⟨.lottery, 18446744073709551615⟩ ∧
    ofCommandLine
      "quiet sched.seed=18446744073709551616 \tacpi=on sched.seeds=sched=1 sched=lottery sched\n"
      = .error (.invalidSeed "18446744073709551616") ∧
    ofCommandLine "sched.seed=18446744073709551616 sched=mlfq" =
      .error (.invalidSeed "18446744073709551616") := by
  obtain ⟨ok, great, elsewhere⟩ := round_trips
  have stands : Numeral "18446744073709551616".toList 18446744073709551616 :=
    numeral?_eq_some_iff.mp (by decide)
  refine ⟨?_, ?_, ?_⟩
  · exact (ok .crowded ⟨.lottery, 18446744073709551615⟩ true 2).1
  · exact (great .crowded .lottery _ _ stands (by decide)).2
  · exact elsewhere _ [] ["sched=mlfq".toList] _ _ stands (by decide)
      (spells_iff.mpr (by decide)) (by simp)

end Config

end Turnstile
