import Mathlib.Logic.ExistsUnique
import Turnstile.Config
import Turnstile.Proofs.Text.Words

/-!
# What a command line says

The words of a command line are its arguments. An argument gives a value for a key if it has an
equals sign, with the key before the first one and the value after it (`Setting.Gives`); it counts
if the key is one of two.

Arguments are read one after another (`Config.override_eq`), and each of them either is bad or says
what policy and what seed there shall be (`Config.take_cases`). So the first bad argument is the
error of the line (`Config.read_fails_iff`), and if there is none, the last argument for a key
decides (`Config.read_ok`). All of it together is `Config.reads_arguments_in_order`.
-/

namespace Turnstile

open Text

namespace Setting

/-! ## Arguments -/

/-- The key stands before the first equals sign of the argument, and the value after it. -/
def Gives (argument key value : List Char) : Prop := argument = key ++ '=' :: value ∧ '=' ∉ key

/-- The key of the policy. -/
def policyKey : List Char := "sched".toList

/-- The key of the seed. -/
def seedKey : List Char := "sched.seed".toList

theorem gives_iff {argument key value : List Char} :
    Gives argument key value ↔ splitAt? '=' argument = some (key, value) :=
  splitAt?_eq_some_iff.symm

/-- An argument gives one value, and for one key. -/
theorem Gives.unique {argument key other value value' : List Char}
    (gives : Gives argument key value)
    (gives' : Gives argument other value') : key = other ∧ value = value' := by
  have same := (gives_iff.mp gives).symm.trans (gives_iff.mp gives')
  exact ⟨congrArg Prod.fst (Option.some.inj same), congrArg Prod.snd (Option.some.inj same)⟩

/-- An argument counts for the policy, or for the seed, or not at all. -/
theorem ofArgument?_cases (argument : List Char) :
    (∃ value, Gives argument policyKey value ∧
      ofArgument? argument = some (.policy (String.ofList value))) ∨
    (∃ value, Gives argument seedKey value ∧
      ofArgument? argument = some (.seed (String.ofList value))) ∨
    ((∀ value, ¬ Gives argument policyKey value) ∧ (∀ value, ¬ Gives argument seedKey value) ∧
      ofArgument? argument = none) := by
  unfold ofArgument?
  cases cut : splitAt? '=' argument with
  | none =>
    have off : ∀ key value, ¬ Gives argument key value := fun key value gives =>
      Option.some_ne_none _ ((gives_iff.mp gives).symm.trans cut)
    exact .inr (.inr ⟨off _, off _, rfl⟩)
  | some parts =>
    obtain ⟨key, value⟩ := parts
    have gives : Gives argument key value := gives_iff.mpr cut
    dsimp only
    by_cases policy : key = policyKey
    · exact .inl ⟨value, policy ▸ gives, if_pos policy⟩
    by_cases seed : key = seedKey
    · exact .inr (.inl ⟨value, seed ▸ gives, (if_neg policy).trans (if_pos seed)⟩)
    · exact .inr (.inr ⟨fun _ other => policy (gives.unique other).1,
        fun _ other => seed (gives.unique other).1, (if_neg policy).trans (if_neg seed)⟩)

/-- The argument counts, and its value is bad. -/
inductive Faulty (argument : List Char) : ConfigError → Prop
  | policy {value : List Char} (counts : Gives argument policyKey value)
    (unknown : ∀ policy : Policy, String.ofList value ≠ policy.name) :
    Faulty argument (.unknownPolicy (String.ofList value))
  | seed {value : List Char} (counts : Gives argument seedKey value)
    (invalid : ∀ seed : UInt64, ¬ Numeral value seed.toNat) :
    Faulty argument (.invalidSeed (String.ofList value))

theorem policyKey_ne_seedKey : policyKey ≠ seedKey := by decide

/-- An argument is bad for one reason. -/
theorem Faulty.unique {argument : List Char} {error other : ConfigError}
    (faulty : Faulty argument error)
    (faulty' : Faulty argument other) : error = other := by
  cases faulty with
  | policy counts unknown =>
    cases faulty' with
    | policy counts' unknown' => rw [(counts.unique counts').2]
    | seed counts' invalid' => exact absurd (counts.unique counts').1 policyKey_ne_seedKey
  | seed counts invalid =>
    cases faulty' with
    | policy counts' unknown' => exact absurd (counts'.unique counts).1 policyKey_ne_seedKey
    | seed counts' invalid' => rw [(counts.unique counts').2]

/-- What an argument says for a key has a property, or it says nothing for the key. -/
def Says (key argument : List Char) (holds : List Char → Prop) (unsaid : Prop) : Prop :=
  (∃ value, Gives argument key value ∧ holds value) ∨
    ((∀ value, ¬ Gives argument key value) ∧ unsaid)

/-- What the last argument for a key says has a property, or there is no argument for the key. -/
def Settles (key : List Char) (arguments : List (List Char)) (holds : List Char → Prop)
    (unsaid : Prop) :
    Prop :=
  (∃ before argument after value, arguments = before ++ argument :: after ∧
    Gives argument key value ∧
    (∀ other ∈ after, ∀ value, ¬ Gives other key value) ∧ holds value) ∨
  ((∀ argument ∈ arguments, ∀ value, ¬ Gives argument key value) ∧ unsaid)

/-- An argument in front counts if none of the others does. -/
theorem Settles.cons {key argument : List Char} {arguments : List (List Char)}
    {holds : List Char → Prop}
    {unsaid unsaid' : Prop} (rest : Settles key arguments holds unsaid')
    (here : unsaid' → Says key argument holds unsaid) :
    Settles key (argument :: arguments) holds unsaid := by
  rcases rest with ⟨before, last, after, value, rfl, gives, none, holds⟩ | ⟨none, unsaid'⟩
  · exact .inl ⟨argument :: before, last, after, value, rfl, gives, none, holds⟩
  · rcases here unsaid' with ⟨value, gives, holds⟩ | ⟨none', unsaid⟩
    · exact .inl ⟨[], argument, arguments, value, rfl, gives, none, holds⟩
    · exact .inr ⟨List.forall_mem_cons.mpr ⟨none', none⟩, unsaid⟩

end Setting

namespace Config

open Setting

variable {config : Config} {argument : List Char} {arguments : List (List Char)}
  {error : ConfigError}

/-! ## One argument -/

theorem seed?_eq_some_iff {value : String} {seed : UInt64} :
    seed? value = some seed ↔ Numeral value.toList seed.toNat := by
  rw [← numeral?_eq_some_iff, seed?]
  cases numeral? value.toList with
  | none => simp
  | some n =>
    simp only [Option.ite_none_right_eq_some, Option.some.injEq]
    constructor
    · rintro ⟨bound, rfl⟩
      exact (UInt64.toNat_ofNat_of_lt bound).symm
    · rintro rfl
      exact ⟨seed.toNat_lt, UInt64.ofNat_toNat⟩

/-- Change the configuration as an argument says. -/
def take (config : Config) (argument : List Char) : Except ConfigError Config :=
  match Setting.ofArgument? argument with
  | some setting => config.apply setting
  | none => .ok config

/-- An argument either is bad, or says what it says for the policy and for the seed. -/
theorem take_cases (config : Config) (argument : List Char) :
    (∃ error, Faulty argument error ∧ config.take argument = .error error) ∨
    ((∀ error, ¬ Faulty argument error) ∧ ∃ after, config.take argument = .ok after ∧
      Says policyKey argument (fun value => String.ofList value = after.policy.name)
        (after.policy = config.policy) ∧
      Says seedKey argument (fun value => Numeral value after.seed.toNat)
        (after.seed = config.seed)) := by
  unfold take
  rcases Setting.ofArgument?_cases argument with
    ⟨value, gives, sets⟩ | ⟨value, gives, sets⟩ | ⟨noPolicy, noSeed, sets⟩
  · have noSeed : ∀ value, ¬ Gives argument seedKey value := fun _ other =>
      policyKey_ne_seedKey (gives.unique other).1
    rw [sets]
    cases named : Policy.ofName? (String.ofList value) with
    | none =>
      refine .inl ⟨_, .policy gives fun policy same => ?_, by simp [apply, named]⟩
      cases named.symm.trans (Policy.ofName?_eq_some_iff.mpr same)
    | some policy =>
      have word := Policy.ofName?_eq_some_iff.mp named
      refine .inr ⟨fun error faulty => ?_, config.withPolicy policy, by simp [apply, named],
        .inl ⟨value, gives, word⟩, .inr ⟨noSeed, rfl⟩⟩
      cases faulty with
      | policy counts unknown => exact unknown policy ((gives.unique counts).2 ▸ word)
      | seed counts invalid => exact noSeed _ counts
  · have noPolicy : ∀ value, ¬ Gives argument policyKey value := fun _ other =>
      policyKey_ne_seedKey (other.unique gives).1
    have reads : ∀ seed, seed? (String.ofList value) = some seed ↔ Numeral value seed.toNat := by
      intro seed
      rw [seed?_eq_some_iff, String.toList_ofList]
    rw [sets]
    cases read : seed? (String.ofList value) with
    | none =>
      refine .inl ⟨_, .seed gives fun seed numeral => ?_, by simp [apply, read]⟩
      cases read.symm.trans ((reads seed).mpr numeral)
    | some seed =>
      have numeral := (reads seed).mp read
      refine .inr ⟨fun error faulty => ?_, config.withSeed seed, by simp [apply, read],
        .inr ⟨noPolicy, rfl⟩, .inl ⟨value, gives, numeral⟩⟩
      cases faulty with
      | policy counts unknown => exact noPolicy _ counts
      | seed counts invalid => exact invalid seed ((gives.unique counts).2 ▸ numeral)
  · rw [sets]
    refine .inr ⟨fun error faulty => ?_, config, rfl, .inr ⟨noPolicy, rfl⟩, .inr ⟨noSeed, rfl⟩⟩
    cases faulty with
    | policy counts unknown => exact noPolicy _ counts
    | seed counts invalid => exact noSeed _ counts

/-! ## All arguments -/

/-- Change the configuration as arguments say, one after another, up to the first that is bad. -/
def read (config : Config) (arguments : List (List Char)) : Except ConfigError Config :=
  arguments.foldlM take config

theorem read_of_ok {after : Config} (taken : config.take argument = .ok after) :
    config.read (argument :: arguments) = after.read arguments := by
  rw [read, List.foldlM_cons, taken]
  rfl

theorem read_of_error (taken : config.take argument = .error error) :
    config.read (argument :: arguments) = .error error := by
  rw [read, List.foldlM_cons, taken]
  rfl

/-- A line is read argument by argument. -/
theorem override_eq (config : Config) (line : String) :
    config.override line = config.read (words line.toList) := by
  unfold override Setting.ofLine
  induction words line.toList generalizing config with
  | nil => rfl
  | cons argument arguments ih =>
    rw [List.filterMap_cons, read, List.foldlM_cons, take]
    cases Setting.ofArgument? argument with
    | none => exact ih config
    | some setting =>
      rw [applyAll]
      dsimp only
      cases config.apply setting with
      | ok after => exact ih after
      | error error => rfl

/-- The first bad argument, and no other, decides why reading fails. -/
theorem read_fails_iff : config.read arguments = .error error ↔
    ∃ before argument after, arguments = before ++ argument :: after ∧
      (∀ other ∈ before, ∀ error, ¬ Faulty other error) ∧ Faulty argument error := by
  induction arguments generalizing config with
  | nil =>
    constructor
    · intro failed
      cases failed
    · rintro ⟨before, argument, after, none, -⟩
      simp at none
  | cons first rest ih =>
    rcases take_cases config first with ⟨error', faulty, taken⟩ | ⟨fine, after, taken, -⟩
    · rw [read_of_error taken, Except.error.injEq]
      constructor
      · rintro rfl
        exact ⟨[], first, rest, rfl, by simp, faulty⟩
      · rintro ⟨before, argument, after, split, fine, faulty'⟩
        cases before with
        | nil =>
          cases split
          exact faulty.unique faulty'
        | cons other before =>
          cases split
          exact absurd faulty (fine first (by simp) error')
    · rw [read_of_ok taken, ih]
      constructor
      · rintro ⟨before, argument, after, rfl, none, faulty⟩
        exact ⟨first :: before, argument, after, rfl, List.forall_mem_cons.mpr ⟨fine, none⟩, faulty⟩
      · rintro ⟨before, argument, after, split, none, faulty⟩
        cases before with
        | nil =>
          cases split
          exact absurd faulty (fine error)
        | cons other before =>
          cases split
          exact ⟨before, argument, after, rfl, (List.forall_mem_cons.mp none).2, faulty⟩

/-- Where no argument is bad, the last one for a key decides. -/
theorem read_ok (fine : ∀ argument ∈ arguments, ∀ error, ¬ Faulty argument error) :
    ∃ last, config.read arguments = .ok last ∧
      Settles policyKey arguments (fun value => String.ofList value = last.policy.name)
        (last.policy = config.policy) ∧
      Settles seedKey arguments (fun value => Numeral value last.seed.toNat)
        (last.seed = config.seed) := by
  induction arguments generalizing config with
  | nil => exact ⟨config, rfl, .inr ⟨by simp, rfl⟩, .inr ⟨by simp, rfl⟩⟩
  | cons first rest ih =>
    obtain ⟨here, fine⟩ := List.forall_mem_cons.mp fine
    rcases take_cases config first with ⟨error, faulty, -⟩ | ⟨-, after, taken, policy, seed⟩
    · exact absurd faulty (here error)
    · obtain ⟨last, read, policies, seeds⟩ := ih fine
      refine ⟨last, (read_of_ok taken).trans read, policies.cons fun same => ?_,
        seeds.cons fun same => ?_⟩
      · rwa [same]
      · rwa [same]

/-- Two lines with a blank between them are read one after the other. -/
theorem override_append (config : Config) (a b : String) {c : Char} (blank : isBlank c = true) :
    config.override (a ++ String.singleton c ++ b) =
      config.override a >>= fun next => next.override b := by
  have spells : Spells (words a.toList ++ words b.toList)
    (a ++ String.singleton c ++ b).toList := by
    rw [String.toList_append, String.toList_append, String.toList_singleton, List.append_assoc]
    exact (spells_iff.mpr rfl).append blank (spells_iff.mpr rfl)
  simp only [override_eq, spells_iff.mp spells, read, List.foldlM_append]

/-- How a command line is read. A line consists of its words, and nothing else about it counts. The
first argument that counts and is bad is the error of the line, whatever stands after it. If there
is none, the policy is that of the last argument for it, and so is the seed; what no argument says
stays as it was, in the default configuration to begin with. So what follows a blank is read on top
of what came before it. -/
theorem reads_arguments_in_order :
    (∀ line : String, ofCommandLine line = default.override line ∧
      ∃! arguments, Spells arguments line.toList) ∧
    (∀ (config : Config) (a b : String) (arguments : List (List Char)),
      Spells arguments a.toList → Spells arguments b.toList →
        config.override a = config.override b) ∧
    (∀ (config : Config) (line : String) (arguments : List (List Char)),
      Spells arguments line.toList →
      (∀ error, config.override line = .error error ↔
        ∃ before argument after, arguments = before ++ argument :: after ∧
          (∀ other ∈ before, ∀ error, ¬ Faulty other error) ∧ Faulty argument error) ∧
      ((∀ argument ∈ arguments, ∀ error, ¬ Faulty argument error) →
        ∃ last, config.override line = .ok last ∧
          Settles policyKey arguments (fun value => String.ofList value = last.policy.name)
            (last.policy = config.policy) ∧
          Settles seedKey arguments (fun value => Numeral value last.seed.toNat)
            (last.seed = config.seed))) ∧
    (∀ (config : Config) (a b : String) (c : Char), isBlank c = true →
      (∀ error, config.override a = .error error →
        config.override (a ++ String.singleton c ++ b) = .error error) ∧
      (∀ next, config.override a = .ok next →
        config.override (a ++ String.singleton c ++ b) = next.override b)) := by
  refine ⟨fun line =>
    ⟨rfl, words line.toList, spells_iff.mpr rfl, fun _ spells => (spells_iff.mp spells).symm⟩,
    fun config a b arguments first second => ?_, fun config line arguments spells => ?_,
    fun config a b c blank => ?_⟩
  · rw [override_eq, override_eq, spells_iff.mp first, spells_iff.mp second]
  · rw [override_eq, spells_iff.mp spells]
    exact ⟨fun error => read_fails_iff, read_ok⟩
  · rw [override_append config a b blank]
    constructor
    · intro error failed
      rw [failed]
      rfl
    · intro next done
      rw [done]
      rfl

/-- A line with two bad arguments fails for the first, and a line is read on top of another. -/
theorem reads_arguments_in_order_twice :
    ofCommandLine "quiet sched=mlfq sched.seed=-3" = .error (.unknownPolicy "mlfq") ∧
    ofCommandLine ("sched=lottery" ++ String.singleton '\t' ++ "sched.seed=7") =
      override ⟨.lottery, XorShift.defaultSeed⟩ "sched.seed=7" := by
  obtain ⟨-, -, arguments, append⟩ := reads_arguments_in_order
  have spells : Spells ["quiet".toList, "sched=mlfq".toList, "sched.seed=-3".toList]
      "quiet sched=mlfq sched.seed=-3".toList := spells_iff.mpr (by decide)
  refine ⟨((arguments default _ _ spells).1 _).mpr ⟨["quiet".toList], _, _, rfl, ?_, ?_⟩,
    (append default _ _ '\t' (by decide)).2 _ rfl⟩
  · intro other mem error faulty
    obtain rfl := List.mem_singleton.mp mem
    rcases faulty with ⟨counts, -⟩ | ⟨counts, -⟩ <;>
      cases (show splitAt? '=' "quiet".toList = none by decide).symm.trans (gives_iff.mp counts)
  · refine .policy ⟨rfl, by decide⟩ fun policy => ?_
    cases policy <;> decide

end Config

end Turnstile
