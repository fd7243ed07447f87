import Mathlib.Data.List.Perm.Subperm
import Turnstile.Proofs.Ledger.Lending

/-!
# The walk that forgets weights

`Tables.invalidate` walks from a thread to the one it lends to, from there to the next, and so
on, and forgets the weights kept on its way.

* **What it does** (`ledger_of_invalidate`, `bare_of_invalidate`): it clears the chain of its
  first thread and changes nothing else.
* **When it ends** (`invalidate_isOk`): always, unless it comes into a ring. A chain without a
  ring has at most as many threads as there are records, so the count of steps never stops it.
* **What its end shows** (`no_return_of_invalidate`): no ring comes through the thread that it
  started from.
-/

namespace Turnstile.Tables

open Relation Ledger

variable {tables after : Tables} {thread : ThreadId}

/-! ## Known threads -/

/-- There are no more known threads than records. -/
theorem length_le_size {threads : List ThreadId} (distinct : threads.Nodup)
    (known : ∀ thread ∈ threads, tables.knows thread = true) :
    threads.length ≤ tables.threads.size := by
  have subset : threads ⊆ tables.threads.keys := fun thread h =>
    Directory.contains_iff_mem_keys.mp (known thread h)
  have := (List.subperm_of_subset distinct subset).length_le
  simpa [Directory.keys, Directory.size] using this

theorem knows_of_waitingOn (h : (tables.ledger.record thread).waitingOn ≠ none) :
    tables.knows thread = true := by
  have hg : tables.threads.get? thread = some (tables.state thread) := get?_of_state_ne fun he =>
    h (show (tables.state thread).waitingOn = none by rw [he]; rfl)
  simp [knows, Directory.contains, hg]

theorem knows_of_owned (h : (tables.ledger.record thread).owned ≠ []) :
    tables.knows thread = true := by
  have hg : tables.threads.get? thread = some (tables.state thread) := get?_of_state_ne fun he =>
    h (show (tables.state thread).owned = [] by rw [he]; rfl)
  simp [knows, Directory.contains, hg]

/-! ## What a walk does -/

theorem donee?_state (tables : Tables) (thread : ThreadId) :
    tables.donee? (tables.state thread) = tables.ledger.donee? thread := by
  show _ = (tables.state thread).waitingOn.bind _
  unfold Tables.donee?
  cases (tables.state thread).waitingOn with
  | none => rfl
  | some id =>
    cases live : tables.queues.get? id with
    | none => simp [donates, ledger, live]
    | some queue => simp [donates, owner?, ledger, live]

/-- Forgetting one thread's weight clears it in the ledger. -/
theorem ledger_forgetting (tables : Tables) (thread : ThreadId) :
    (tables.amend thread fun state => { state with memo := none }).ledger =
      tables.ledger.clear {thread} := by
  rw [ledger_amend rfl]
  refine Ledger.ext rfl rfl rfl (funext fun other => ?_)
  by_cases h : thread = other
  · subst h
    have hm : thread ∈ ({thread} : Set ThreadId) := rfl
    rw [record_clear_of_mem hm]
    exact if_pos rfl
  · have hm : other ∉ ({thread} : Set ThreadId) := fun hm => h hm.symm
    rw [record_clear_of_notMem hm]
    exact if_neg h

/-- There is nothing to clear for a thread without a record. -/
theorem clear_unknown (h : tables.threads.get? thread = none) :
    tables.ledger.clear {thread} = tables.ledger := by
  refine Ledger.ext rfl rfl rfl (funext fun other => ?_)
  by_cases hm : other ∈ ({thread} : Set ThreadId)
  · rw [record_clear_of_mem hm]
    obtain rfl : other = thread := hm
    show (tables.state other).bare = tables.state other
    rw [state_of_get?_none h]
    rfl
  · rw [record_clear_of_notMem hm]

theorem invalidateWithin_ok {hops : Nat}
    (h : invalidateWithin hops thread tables = .ok after) :
    after.bare = tables.bare ∧
      after.ledger = tables.ledger.clear (tables.ledger.chain thread) := by
  induction hops generalizing thread tables with
  | zero => simp [invalidateWithin] at h
  | succ hops ih =>
    rw [invalidateWithin] at h
    cases hs : tables.threads.get? thread with
    | none =>
      simp only [hs, Except.ok.injEq] at h
      subst h
      have alone : tables.ledger.donee? thread = none := by
        rw [← donee?_state, state_of_get?_none hs]
        rfl
      rw [chain_of_donee?_eq_none alone, clear_unknown hs]
      exact ⟨rfl, rfl⟩
    | some state =>
      simp only [hs] at h
      have next : tables.donee? state = tables.ledger.donee? thread := by
        rw [← donee?_state, state_of_get? hs]
      rw [next] at h
      cases hd : tables.ledger.donee? thread with
      | none =>
        simp only [hd, Except.ok.injEq] at h
        subst h
        rw [chain_of_donee?_eq_none hd, ledger_forgetting]
        exact ⟨bare_amend_memo tables thread none, rfl⟩
      | some owner =>
        simp only [hd] at h
        -- The chain is read off queues and records, so forgetting one weight leaves what is to come
        -- of it.
        obtain ⟨bare, cleared⟩ := ih h
        refine ⟨bare.trans (bare_amend_memo tables thread none), ?_⟩
        rw [cleared, ledger_forgetting, chain_of_bare (bare_clear _ _), clear_clear,
          chain_of_hop hd]

theorem bare_of_invalidate (h : tables.invalidate thread = .ok after) :
    after.bare = tables.bare :=
  (invalidateWithin_ok h).1

theorem ledger_of_invalidate (h : tables.invalidate thread = .ok after) :
    after.ledger = tables.ledger.clear (tables.ledger.chain thread) :=
  (invalidateWithin_ok h).2

/-! ## When a walk ends -/

/-- The threads in `seen` are those that the walk has come through. Without a ring they are all
different, so there cannot be more of them than records. -/
theorem invalidateWithin_isOk (hops : Nat) (seen : List ThreadId)
    (acyclic : ∀ other, ¬ TransGen tables.ledger.Hop other other) (distinct : seen.Nodup)
    (passed : ∀ other ∈ seen, TransGen tables.ledger.Hop other thread)
    (enough : tables.threads.size + 1 ≤ hops + seen.length) :
    ∃ after, invalidateWithin hops thread tables = .ok after := by
  induction hops generalizing seen thread tables with
  | zero =>
    -- All of `seen` wait for something, so they have records, and then there are too many of them.
    have : seen.length ≤ tables.threads.size := by
      refine length_le_size distinct fun other ho => knows_of_waitingOn fun idle => ?_
      obtain ⟨next, hop, -⟩ := TransGen.head'_iff.mp (passed other ho)
      rw [Hop, Ledger.donee?, idle] at hop
      simp at hop
    omega
  | succ hops ih =>
    rw [invalidateWithin]
    cases hs : tables.threads.get? thread with
    | none => exact ⟨tables, rfl⟩
    | some state =>
      have next : tables.donee? state = tables.ledger.donee? thread := by
        rw [← donee?_state, state_of_get? hs]
      simp only [next]
      cases hd : tables.ledger.donee? thread with
      | none => exact ⟨_, rfl⟩
      | some owner =>
        have bare := bare_amend_memo tables thread none
        have hops' := hop_of_bare (ledger_bare_eq_of_bare bare)
        refine ih (thread :: seen) ?_ (List.nodup_cons.mpr ⟨?_, distinct⟩) ?_ ?_
        · rw [hops']
          exact acyclic
        · exact fun hm => acyclic thread (passed thread hm)
        · rw [hops']
          intro other ho
          rcases List.mem_cons.mp ho with rfl | ho
          · exact .single hd
          · exact (passed other ho).tail hd
        · rw [size_eq_of_bare bare, List.length_cons]
          omega

theorem invalidate_isOk (acyclic : ∀ other, ¬ TransGen tables.ledger.Hop other other)
    (thread : ThreadId) : ∃ after, tables.invalidate thread = .ok after :=
  invalidateWithin_isOk _ [] acyclic List.nodup_nil (by simp) (by simp)

/-- A walk that ends has not come back to where it started from. -/
theorem no_return_of_invalidateWithin {hops : Nat}
    (h : invalidateWithin hops thread tables = .ok after) :
    ¬ TransGen tables.ledger.Hop thread thread := by
  induction hops generalizing thread tables with
  | zero => simp [invalidateWithin] at h
  | succ hops ih =>
    intro ring
    obtain ⟨owner, hop, rest⟩ := TransGen.head'_iff.mp ring
    rw [invalidateWithin] at h
    cases hs : tables.threads.get? thread with
    | none =>
      rw [Hop, ← donee?_state, state_of_get?_none hs] at hop
      simp [Tables.donee?, ThreadState.fresh] at hop
    | some state =>
      have next : tables.donee? state = some owner := by
        rw [← hop, ← donee?_state, state_of_get? hs]
      simp only [hs, next] at h
      have hops' := hop_of_bare (ledger_bare_eq_of_bare (bare_amend_memo tables thread none))
      refine ih h ?_
      rw [hops']
      exact TransGen.trans_right rest (.single hop)

theorem no_return_of_invalidate (h : tables.invalidate thread = .ok after) :
    ¬ TransGen tables.ledger.Hop thread thread :=
  no_return_of_invalidateWithin h

end Turnstile.Tables
