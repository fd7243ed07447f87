/-!
# Directories

A finite map with few keys, kept as a list of entries in order of first use. An entry keeps
its place when its value is replaced, so the order of `toList` is the order in which keys
appeared.

* **Look-up** (`get?`) finds the first entry of a key.
* **Writing** (`set`, `modify`, `erase`) never makes a second entry of one key, so `size`
  counts keys.
* **The view** of a directory is `get?`: `get?_set` and `get?_erase` say what a write does to
  every key.
-/

namespace Turnstile

/-- A finite map from keys to values, in order of first use. -/
structure Directory (κ : Type) (α : Type) where
  entries : List (κ × α)
deriving Repr, DecidableEq

namespace Directory

variable {κ α : Type}

/-- The map without keys. -/
def empty : Directory κ α := ⟨[]⟩

instance : EmptyCollection (Directory κ α) := ⟨empty⟩

instance : Inhabited (Directory κ α) := ⟨empty⟩

/-- The entries in order of first use. -/
def toList (directory : Directory κ α) : List (κ × α) := directory.entries

/-- The keys in order of first use. -/
def keys (directory : Directory κ α) : List κ := directory.entries.map Prod.fst

/-- The number of keys. -/
def size (directory : Directory κ α) : Nat := directory.entries.length

theorem size_eq_length_keys (directory : Directory κ α) : directory.size = directory.keys.length :=
  (List.length_map Prod.fst).symm

variable [DecidableEq κ]

/-- The value of the first entry for `key`. -/
def find? (key : κ) : List (κ × α) → Option α
  | [] => none
  | (k, a) :: rest => if k = key then some a else find? key rest

/-- Replace the value of the first entry for `key`, or add an entry at the end. -/
def put (key : κ) (value : α) : List (κ × α) → List (κ × α)
  | [] => [(key, value)]
  | (k, a) :: rest => if k = key then (key, value) :: rest else (k, a) :: put key value rest

/-- The value of `key`, if it has one. -/
def get? (directory : Directory κ α) (key : κ) : Option α := find? key directory.entries

/-- Whether `key` has a value. -/
def contains (directory : Directory κ α) (key : κ) : Bool := (directory.get? key).isSome

/-- Give `key` the value `value`. -/
def set (directory : Directory κ α) (key : κ) (value : α) : Directory κ α :=
  ⟨put key value directory.entries⟩

/-- Change the value of `key`; without one, change nothing. -/
def modify (directory : Directory κ α) (key : κ) (f : α → α) : Directory κ α :=
  match directory.get? key with
  | some value => directory.set key (f value)
  | none => directory

/-- Forget `key`. -/
def erase (directory : Directory κ α) (key : κ) : Directory κ α :=
  ⟨directory.entries.filter fun entry => entry.1 ≠ key⟩

/-! ## What a write does to look-ups -/

@[simp] theorem get?_empty (key : κ) : (empty : Directory κ α).get? key = none := rfl

theorem find?_put (key other : κ) (value : α) (entries : List (κ × α)) :
    find? other (put key value entries) =
      if key = other then some value else find? other entries := by
  induction entries with
  | nil => rfl
  | cons entry rest ih =>
    obtain ⟨k, a⟩ := entry
    by_cases hk : k = key
    · subst hk
      by_cases ho : k = other <;> simp [put, find?, ho]
    · by_cases ho : k = other
      · subst ho
        simp [put, find?, hk, Ne.symm hk]
      · simp [put, find?, hk, ho, ih]

theorem get?_set (directory : Directory κ α) (key other : κ) (value : α) :
    (directory.set key value).get? other =
      if key = other then some value else directory.get? other :=
  find?_put key other value directory.entries

theorem put_self {key : κ} {value : α} {entries : List (κ × α)}
    (h : find? key entries = some value) : put key value entries = entries := by
  induction entries with
  | nil => simp [find?] at h
  | cons entry rest ih =>
    obtain ⟨k, a⟩ := entry
    by_cases hk : k = key
    · simp_all [find?, put]
    · rw [find?, if_neg hk] at h
      rw [put, if_neg hk, ih h]

/-- Writing the value that a key has already changes nothing. -/
theorem set_self {directory : Directory κ α} {key : κ} {value : α}
    (h : directory.get? key = some value) : directory.set key value = directory := by
  rw [set, put_self h]

theorem put_put (key : κ) (value other : α) (entries : List (κ × α)) :
    put key other (put key value entries) = put key other entries := by
  induction entries with
  | nil => simp [put]
  | cons entry rest ih =>
    by_cases h : entry.1 = key <;> simp [put, h, ih]

/-- What a key is given last counts. -/
theorem set_set (directory : Directory κ α) (key : κ) (value other : α) :
    (directory.set key value).set key other = directory.set key other :=
  congrArg Directory.mk (put_put key value other directory.entries)

theorem find?_filter_ne (key other : κ) (entries : List (κ × α)) :
    find? other (entries.filter fun entry => entry.1 ≠ key) =
      if key = other then none else find? other entries := by
  induction entries with
  | nil => simp [find?]
  | cons entry rest ih =>
    obtain ⟨k, a⟩ := entry
    by_cases hk : k = key
    · subst hk
      by_cases ho : k = other
      · subst ho
        simpa using ih
      · simpa [find?, ho] using ih
    · by_cases ho : k = other
      · subst ho
        simp [find?, hk, Ne.symm hk]
      · simp only [ne_eq, hk, not_false_eq_true, decide_true, List.filter_cons_of_pos, find?, ho,
          if_false]
        simpa using ih

theorem get?_erase (directory : Directory κ α) (key other : κ) :
    (directory.erase key).get? other =
      if key = other then none else directory.get? other :=
  find?_filter_ne key other directory.entries

theorem get?_modify (directory : Directory κ α) (key other : κ) (f : α → α) :
    (directory.modify key f).get? other =
      if key = other then (directory.get? other).map f else directory.get? other := by
  unfold modify
  by_cases h : key = other
  · subst h
    cases hk : directory.get? key <;> simp [get?_set, hk]
  · cases directory.get? key <;> simp [get?_set, h]

/-! ## Keys -/

theorem find?_isSome_iff {key : κ} {entries : List (κ × α)} :
    (find? key entries).isSome = true ↔ key ∈ entries.map Prod.fst := by
  induction entries with
  | nil => simp [find?]
  | cons entry rest ih =>
    obtain ⟨k, a⟩ := entry
    by_cases hk : k = key
    · simp [find?, hk]
    · rw [find?, if_neg hk, ih]
      simp [Ne.symm hk]

theorem contains_iff_mem_keys {directory : Directory κ α} {key : κ} :
    directory.contains key = true ↔ key ∈ directory.keys :=
  find?_isSome_iff

theorem mem_of_find? {key : κ} {value : α} {entries : List (κ × α)}
    (h : find? key entries = some value) : (key, value) ∈ entries := by
  induction entries with
  | nil => cases h
  | cons entry rest ih =>
    rw [find?] at h
    split at h
    · rename_i same
      cases h
      rw [← same]
      exact List.mem_cons_self
    · exact List.mem_cons_of_mem _ (ih h)

theorem mem_toList_of_get? {directory : Directory κ α} {key : κ} {value : α}
    (h : directory.get? key = some value) : (key, value) ∈ directory.toList :=
  mem_of_find? h

theorem mem_keys_iff {directory : Directory κ α} {key : κ} :
    key ∈ directory.keys ↔ (directory.get? key).isSome = true :=
  contains_iff_mem_keys.symm

theorem notMem_keys_iff {directory : Directory κ α} {key : κ} :
    key ∉ directory.keys ↔ directory.get? key = none := by
  rw [mem_keys_iff, Bool.not_eq_true, Option.isSome_eq_false_iff, Option.isNone_iff_eq_none]

/-- Only a key without an entry is new. -/
theorem map_fst_put (key : κ) (value : α) (entries : List (κ × α)) :
    (put key value entries).map Prod.fst =
      if key ∈ entries.map Prod.fst then entries.map Prod.fst
      else entries.map Prod.fst ++ [key] := by
  induction entries with
  | nil => simp [put]
  | cons entry rest ih =>
    obtain ⟨k, a⟩ := entry
    by_cases hk : k = key
    · simp [put, hk]
    · rw [put, if_neg hk, List.map_cons, ih, List.map_cons]
      by_cases known : key ∈ rest.map Prod.fst
      · rw [if_pos known, if_pos (List.mem_cons_of_mem _ known)]
      · have fresh : key ∉ k :: rest.map Prod.fst := by simpa [Ne.symm hk] using known
        rw [if_neg known, if_neg fresh]
        rfl

theorem keys_set (directory : Directory κ α) (key : κ) (value : α) :
    (directory.set key value).keys =
      if key ∈ directory.keys then directory.keys else directory.keys ++ [key] :=
  map_fst_put key value directory.entries

theorem keys_erase (directory : Directory κ α) (key : κ) :
    (directory.erase key).keys = directory.keys.filter (· ≠ key) := by
  simp only [keys, erase, List.filter_map, Function.comp_def]

theorem keys_modify (directory : Directory κ α) (key : κ) (f : α → α) :
    (directory.modify key f).keys = directory.keys := by
  unfold modify
  cases held : directory.get? key with
  | none => rfl
  | some value =>
    have known : key ∈ directory.keys := mem_keys_iff.mpr (by rw [held]; rfl)
    show (directory.set key (f value)).keys = _
    rw [keys_set, if_pos known]

/-- To forget a key that has no value changes nothing. -/
theorem erase_self {directory : Directory κ α} {key : κ} (unknown : directory.get? key = none) :
    directory.erase key = directory := by
  have absent := notMem_keys_iff.mpr unknown
  obtain ⟨entries⟩ := directory
  refine congrArg Directory.mk (List.filter_eq_self.mpr fun entry here => ?_)
  have other : entry.1 ≠ key := fun same => absent (same ▸ List.mem_map_of_mem here)
  simpa using other

/-- The value of a key is the one in its entry, where no key has two. -/
theorem get?_eq_some_iff_mem {directory : Directory κ α} (distinct : directory.keys.Nodup)
    {key : κ} {value : α} :
    directory.get? key = some value ↔ (key, value) ∈ directory.toList := by
  constructor
  · exact mem_toList_of_get?
  · obtain ⟨entries⟩ := directory
    intro here
    show find? key entries = some value
    replace distinct : (entries.map Prod.fst).Nodup := distinct
    replace here : (key, value) ∈ entries := here
    induction entries with
    | nil => cases here
    | cons entry rest ih =>
      obtain ⟨first, distinct⟩ := List.nodup_cons.mp distinct
      rcases List.mem_cons.mp here with rfl | here
      · simp [find?]
      · have other : entry.1 ≠ key := fun same =>
          first (same ▸ List.mem_map_of_mem here)
        rw [find?, if_neg other]
        exact ih distinct here

theorem nodup_keys_set {directory : Directory κ α} (distinct : directory.keys.Nodup) (key : κ)
    (value : α) : (directory.set key value).keys.Nodup := by
  rw [keys_set]
  split
  · exact distinct
  · rename_i fresh
    refine List.nodup_append.mpr ⟨distinct, List.pairwise_singleton _ _, ?_⟩
    intro other known last here same
    rw [List.mem_singleton.mp here] at same
    exact fresh (same ▸ known)

theorem nodup_keys_erase {directory : Directory κ α} (distinct : directory.keys.Nodup) (key : κ) :
    (directory.erase key).keys.Nodup := by
  rw [keys_erase]
  exact List.Pairwise.sublist List.filter_sublist distinct

theorem size_set_of_fresh {directory : Directory κ α} {key : κ} (fresh : directory.get? key = none)
    (value : α) : (directory.set key value).size = directory.size + 1 := by
  rw [size_eq_length_keys, keys_set, if_neg (notMem_keys_iff.mpr fresh), List.length_append,
    size_eq_length_keys, List.length_singleton]

theorem size_erase {directory : Directory κ α} (distinct : directory.keys.Nodup) {key : κ}
    (known : key ∈ directory.keys) : (directory.erase key).size + 1 = directory.size := by
  have erased : directory.keys.filter (· ≠ key) = directory.keys.erase key := by
    rw [List.Nodup.erase_eq_filter distinct]
    exact List.filter_congr fun other _ => decide_not
  rw [size_eq_length_keys, keys_erase, erased, List.length_erase_of_mem known,
    size_eq_length_keys]
  have := List.length_pos_of_mem known
  omega

end Directory

end Turnstile
