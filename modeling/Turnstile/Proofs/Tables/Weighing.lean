import Turnstile.Proofs.Ledger.Weighing
import Turnstile.Proofs.Tables.Walk

/-!
# Working a weight out

`Tables.effective` works a thread's weight out from the base weights and the lenders, takes what
is kept wherever something is kept, and keeps what it worked out.

* **`Weighed`** is what it does to the tables: nothing is different but weights kept, and these
  are right as before.
* **`effective_ok`**: without a ring it always ends, with the weight that `Ledger.Weighs` gives.
  The depth counts the threads from the one asked for down to a lender; they are all different
  and all known, so the records are enough.
-/

namespace Turnstile.Tables

open Relation Ledger

variable {tables after : Tables} {thread : ThreadId}

/-- Two tables differ in nothing but weights kept, and those of the second are right. -/
structure Weighed (tables after : Tables) : Prop where
  bare : after.bare = tables.bare
  coherent : after.ledger.Coherent

/-! ## Steps of the working-out -/

/-- Queues that are all live can be asked for their waiters. -/
theorem lenders_ok {ids : List QueueId} (live : ∀ id ∈ ids, tables.ledger.queue? id ≠ none) :
    tables.lenders ids = .ok (ids.flatMap tables.ledger.lendersAt) := by
  induction ids with
  | nil => rfl
  | cons id rest ih =>
    obtain ⟨queue, hq⟩ := Option.ne_none_iff_exists'.mp (live id List.mem_cons_self)
    have found : tables.queues.get? id = some queue := hq
    rw [Tables.lenders, ih fun other ho => live other (List.mem_cons_of_mem _ ho),
      queue_eq_ok_iff.mpr found]
    simp only [List.flatMap_cons, lendersAt, hq]
    split <;> simp

/-- The queues that a thread owns are live. -/
theorem lenders_owned (linked : tables.ledger.Linked) (thread : ThreadId) :
    tables.lenders (tables.state thread).owned = .ok (tables.ledger.lenders thread) := by
  refine lenders_ok fun id owns free => ?_
  have := (linked.owned_iff thread id).mp owns
  rw [owner?, free] at this
  cases this

theorem ledger_remember (tables : Tables) (thread : ThreadId) (weight : Int) :
    (tables.remember thread weight).ledger =
      tables.ledger.write thread fun state => { state with memo := some weight } :=
  ledger_record tables thread _

/-- To keep a right weight is harmless. -/
theorem weighed_remember {weight : Int} (coherent : tables.ledger.Coherent)
    (known : tables.knows thread = true) (weighs : tables.ledger.Weighs thread weight) :
    Weighed tables (tables.remember thread weight) where
  bare := bare_remember known weight
  coherent := by
    have bare := ledger_bare_eq_of_bare (bare_remember known weight)
    intro other kept h
    have right : tables.ledger.Weighs other kept := by
      rw [ledger_remember] at h
      by_cases ho : thread = other
      · subst ho
        have : weight = kept := by simpa [Ledger.write] using h
        exact this ▸ weighs
      · exact coherent other kept (by simpa [Ledger.write, ho] using h)
    exact right.of_bare bare

/-- The weights of lenders can be added if each of them can be worked out. -/
theorem pool_ok {weigh : ThreadId → Tables → Except Violation (Int × Tables)}
    {lenders : List (Policy × ThreadId)} (total : Int) (start : Tables)
    (bare : start.bare = tables.bare) (coherent : start.ledger.Coherent)
    (each : ∀ lender ∈ lenders, ∀ now : Tables, now.bare = tables.bare → now.ledger.Coherent →
      ∃ weight after, weigh lender.2 now = .ok (weight, after) ∧ Weighed now after ∧
        now.ledger.Weighs lender.2 weight) :
    ∃ result after, pool weigh lenders total start = .ok (result, after) ∧
      Weighed start after ∧ start.ledger.Pools lenders total result := by
  induction lenders generalizing total start with
  | nil => exact ⟨total, start, rfl, ⟨rfl, coherent⟩, .nil⟩
  | cons lender rest ih =>
    obtain ⟨donated, next, hw, weighed, weighs⟩ :=
      each lender List.mem_cons_self start bare coherent
    obtain ⟨result, after, hp, pooled, pools⟩ :=
      ih (lender.1.donate total donated) next (weighed.bare.trans bare) weighed.coherent
        fun other ho => each other (List.mem_cons_of_mem _ ho)
    refine ⟨result, after, ?_, ⟨pooled.bare.trans weighed.bare, pooled.coherent⟩, ?_⟩
    · obtain ⟨policy, lender⟩ := lender
      rw [pool, hw]
      exact hp
    · exact .cons weighs (pools.of_bare (ledger_bare_eq_of_bare weighed.bare).symm)

/-! ## The whole working-out -/

/-- A weight can be worked out if those of all lenders can, one level down. -/
theorem weigh_succ_ok {depth : Nat} (linked : tables.ledger.Linked)
    (coherent : tables.ledger.Coherent) (known : tables.knows thread = true)
    (each : ∀ lender ∈ tables.ledger.lenders thread, ∀ now : Tables,
      now.bare = tables.bare → now.ledger.Coherent →
      ∃ weight after, weigh depth lender.2 now = .ok (weight, after) ∧ Weighed now after ∧
        now.ledger.Weighs lender.2 weight) :
    ∃ weight after, weigh (depth + 1) thread tables = .ok (weight, after) ∧
      Weighed tables after ∧ tables.ledger.Weighs thread weight := by
  rw [weigh]
  simp only [enrol_of_knows known]
  cases kept : (tables.state thread).memo with
  | some weight => exact ⟨weight, tables, rfl, ⟨rfl, coherent⟩, coherent thread weight kept⟩
  | none =>
    simp only [lenders_owned linked]
    obtain ⟨weight, pooled, hp, weighed, pools⟩ :=
      pool_ok (tables.state thread).base tables rfl coherent each
    have known' : pooled.knows thread = true := by rw [knows_eq_of_bare weighed.bare, known]
    have weighs : pooled.ledger.Weighs thread weight :=
      Weighs.of_bare (ledger_bare_eq_of_bare weighed.bare) pools
    have remembered := weighed_remember weighed.coherent known' weighs
    refine ⟨weight, pooled.remember thread weight, ?_,
      ⟨remembered.bare.trans weighed.bare, remembered.coherent⟩, pools⟩
    simp only [hp]

/-- The threads in `seen` are those that the working-out has come down through. -/
theorem weigh_ok (depth : Nat) (seen : List ThreadId) (linked : tables.ledger.Linked)
    (acyclic : tables.ledger.Acyclic) (coherent : tables.ledger.Coherent)
    (known : tables.knows thread = true) (distinct : seen.Nodup)
    (above : ∀ other ∈ seen, TransGen tables.ledger.Lends thread other)
    (enough : tables.threads.size + 1 ≤ depth + seen.length) :
    ∃ weight after, weigh depth thread tables = .ok (weight, after) ∧ Weighed tables after ∧
      tables.ledger.Weighs thread weight := by
  induction depth generalizing thread tables seen with
  | zero =>
    -- All of `seen` own something, so they have records, and then there are too many of them.
    have : seen.length ≤ tables.threads.size := by
      refine length_le_size distinct fun other ho => knows_of_owned ?_
      obtain ⟨lender, -, lends⟩ := TransGen.tail'_iff.mp (above other ho)
      exact linked.owned_ne_nil lends
    omega
  | succ depth ih =>
    -- Lenders weighed before this one have left nothing but weights kept, so it is lent to as at
    -- the beginning.
    refine weigh_succ_ok linked coherent known fun lender hl now bare coherent => ?_
    have queues : now.ledger.queue? = tables.ledger.queue? :=
      queue?_of_bare (ledger_bare_eq_of_bare bare)
    have lends : tables.ledger.Lends lender.2 thread :=
      linked.lends_iff_mem_lenders.mpr ⟨lender.1, hl⟩
    refine ih (thread :: seen) (linked.of_bare (ledger_bare_eq_of_bare bare))
      (acyclic.congr queues) coherent ?_
      (List.nodup_cons.mpr ⟨fun hm => acyclic thread (above thread hm), distinct⟩) ?_ ?_
    · rw [knows_eq_of_bare bare]
      exact knows_of_waitingOn (linked.waitingOn_ne_none lends)
    · rw [lends_congr queues]
      intro other ho
      rcases List.mem_cons.mp ho with rfl | ho
      · exact .single lends
      · exact .head lends (above other ho)
    · rw [size_eq_of_bare bare, List.length_cons]
      omega

/-- Asked for the weight of a thread that it does not know, the scheduler makes a record for it
first. -/
theorem effective_ok (linked : tables.ledger.Linked) (acyclic : tables.ledger.Acyclic)
    (coherent : tables.ledger.Coherent) (thread : ThreadId) :
    ∃ weight after, tables.effective thread = .ok (weight, after) ∧
      Weighed (tables.enrol thread) after ∧ tables.ledger.Weighs thread weight := by
  cases known : tables.knows thread with
  | true =>
    rw [enrol_of_knows known]
    exact weigh_ok _ [] linked acyclic coherent known List.nodup_nil (by simp) (by simp)
  | false =>
    have new : tables.state thread = .fresh tables.policy.defaultWeight :=
      state_of_get?_none (by simpa [knows, Directory.contains] using known)
    have nothing : tables.ledger.lenders thread = [] := by
      rw [Ledger.lenders, show tables.ledger.record thread = _ from new]
      rfl
    have coherent' : (tables.enrol thread).ledger.Coherent := by rwa [ledger_enrol]
    have weighs : tables.ledger.Weighs thread (tables.state thread).base := by
      rw [Weighs, nothing]
      exact .nil
    refine ⟨(tables.state thread).base, (tables.enrol thread).remember thread
      (tables.state thread).base, ?_, weighed_remember coherent' (knows_enrol tables thread)
      (by rwa [ledger_enrol]), weighs⟩
    rw [effective, weigh]
    simp only [state_enrol]
    simp [new, ThreadState.fresh, Tables.lenders, pool]

end Turnstile.Tables
