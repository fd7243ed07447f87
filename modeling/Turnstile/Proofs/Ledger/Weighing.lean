import Mathlib.Data.List.Basic
import Turnstile.Proofs.Ledger.Lending

/-!
# Weights worked out from nothing

What a thread weighs with all that is lent to it, worked out from base weights alone and without
a look at the weights kept.

* **`Ledger.Weighing`** is the equation: every thread weighs its base weight with what its
  lenders weigh.
* **`Ledger.Weighs`** is one thread's weight by a finite working-out. There is at most one
  (`Weighs.unique`), and every solution of the equation agrees with it (`Weighing.eq_of_weighs`).
* **`Ledger.Coherent`**: the weights kept are the weights worked out. A move changes the lenders
  or the base weight of a few threads; if these, and all that they lend to, are cleared, the
  weights still kept stay right (`Coherent.of_frame`), because no lender of the other threads is
  among those cleared.
-/

namespace Turnstile.Ledger

/-- The waiters of a donating queue, each under the policy of the queue. -/
def lendersAt (ledger : Ledger) (id : QueueId) : List (Policy × ThreadId) :=
  match ledger.queue? id with
  | none => []
  | some queue => if queue.donation then queue.waiting.map (queue.policy, ·) else []

/-- Those who lend to a thread, in the order in which their weights are added. -/
def lenders (ledger : Ledger) (thread : ThreadId) : List (Policy × ThreadId) :=
  (ledger.record thread).owned.flatMap ledger.lendersAt

/-- Every thread weighs its base weight with what its lenders weigh. -/
def Weighing (ledger : Ledger) (weight : ThreadId → Int) : Prop :=
  ∀ thread, weight thread = (ledger.lenders thread).foldl
    (fun total lender => lender.1.donate total (weight lender.2)) (ledger.record thread).base

/-- Adding to `total` what each lender weighs gives `result`. -/
inductive Pools (ledger : Ledger) : List (Policy × ThreadId) → (total result : Int) → Prop
  | nil {total} : Pools ledger [] total total
  | cons {policy lender rest total donated result} :
      Pools ledger (ledger.lenders lender) (ledger.record lender).base donated →
      Pools ledger rest (policy.donate total donated) result →
      Pools ledger ((policy, lender) :: rest) total result

/-- The thread weighs `weight`. -/
def Weighs (ledger : Ledger) (thread : ThreadId) (weight : Int) : Prop :=
  Pools ledger (ledger.lenders thread) (ledger.record thread).base weight

/-- The weights kept are right. -/
def Coherent (ledger : Ledger) : Prop :=
  ∀ thread weight, (ledger.record thread).memo = some weight → ledger.Weighs thread weight

variable {ledger after : Ledger} {id : QueueId} {thread : ThreadId} {queue : Queue}

/-! ## Lenders -/

theorem mem_lendersAt {policy : Policy} {lender : ThreadId} :
    (policy, lender) ∈ ledger.lendersAt id ↔ ∃ queue, ledger.queue? id = some queue ∧
      queue.donation = true ∧ lender ∈ queue.waiting ∧ policy = queue.policy := by
  unfold lendersAt
  cases ledger.queue? id with
  | none => simp
  | some queue =>
    by_cases donation : queue.donation = true
    · simp [donation, eq_comm (a := policy)]
    · simp [donation]

/-- In a linked ledger the lenders of a thread are those who lend to it. -/
theorem Linked.lends_iff_mem_lenders (linked : ledger.Linked) {a b : ThreadId} :
    ledger.Lends a b ↔ ∃ policy, (policy, a) ∈ ledger.lenders b := by
  constructor
  · rintro ⟨id, queue, live, donation, waits, owns⟩
    refine ⟨queue.policy, List.mem_flatMap.mpr ⟨id, ?_, ?_⟩⟩
    · rw [linked.owned_iff, owner?_of_queue? live, owns]
    · exact mem_lendersAt.mpr ⟨queue, live, donation, waits, rfl⟩
  · rintro ⟨policy, h⟩
    obtain ⟨id, owns, h⟩ := List.mem_flatMap.mp h
    obtain ⟨queue, live, donation, waits, -⟩ := mem_lendersAt.mp h
    rw [linked.owned_iff, owner?_of_queue? live] at owns
    exact ⟨id, queue, live, donation, waits, owns⟩

/-- Lenders are the same where the thread owns the same queues and their waiters are the
same. -/
theorem lenders_congr (owned : (after.record thread).owned = (ledger.record thread).owned)
    (same : ∀ id ∈ (ledger.record thread).owned, after.lendersAt id = ledger.lendersAt id) :
    after.lenders thread = ledger.lenders thread := by
  rw [lenders, lenders, owned]
  exact List.flatMap_congr same

theorem lendersAt_congr (same : after.queue? id = ledger.queue? id) :
    after.lendersAt id = ledger.lendersAt id := by
  rw [lendersAt, lendersAt, same]

/-! ## The weight of a thread -/

theorem Pools.unique {lenders : List (Policy × ThreadId)} {total result other : Int}
    (h : ledger.Pools lenders total result) (ho : ledger.Pools lenders total other) :
    result = other := by
  induction h generalizing other with
  | nil =>
    cases ho
    rfl
  | cons _ _ ihLender ihRest =>
    cases ho with
    | cons lender rest =>
      rw [← ihLender lender] at rest
      exact ihRest rest

theorem Weighs.unique {weight other : Int} (h : ledger.Weighs thread weight)
    (ho : ledger.Weighs thread other) : weight = other :=
  Pools.unique h ho

/-- A solution of the equation agrees with every sum that has been worked out. -/
theorem Weighing.eq_of_pools {weight : ThreadId → Int} (weighing : ledger.Weighing weight)
    {lenders : List (Policy × ThreadId)} {total result : Int}
    (h : ledger.Pools lenders total result) :
    lenders.foldl (fun total lender => lender.1.donate total (weight lender.2)) total =
      result := by
  induction h with
  | nil => rfl
  | cons _ _ ihLender ihRest =>
    rw [List.foldl_cons, weighing, ihLender]
    exact ihRest

theorem Weighing.eq_of_weighs {weight : ThreadId → Int} (weighing : ledger.Weighing weight)
    {result : Int} (h : ledger.Weighs thread result) : weight thread = result :=
  (weighing thread).trans (weighing.eq_of_pools h)

/-- Sums that have been worked out are folds over what the lenders weigh. -/
theorem Pools.eq_foldl {weight : ThreadId → Int} (weighs : ∀ thread, ledger.Weighs thread
    (weight thread)) {lenders : List (Policy × ThreadId)} {total result : Int}
    (h : ledger.Pools lenders total result) :
    result =
      lenders.foldl (fun total lender => lender.1.donate total (weight lender.2)) total := by
  induction h with
  | nil => rfl
  | cons lender rest _ ihRest =>
    rw [List.foldl_cons, (weighs _).unique lender]
    exact ihRest

/-- If every thread has a weight, these weights are the only solution of the equation. -/
theorem weighing_iff {weight : ThreadId → Int}
    (weighs : ∀ thread, ledger.Weighs thread (weight thread)) (other : ThreadId → Int) :
    ledger.Weighing other ↔ other = weight := by
  constructor
  · intro weighing
    funext thread
    exact weighing.eq_of_weighs (weighs thread)
  · rintro rfl thread
    exact (weighs thread).eq_foldl weighs

/-! ## What keeps weights right -/

section Frame

variable (inside : Set ThreadId)
  (bases : ∀ thread ∉ inside, (after.record thread).base = (ledger.record thread).base)
  (lenders : ∀ thread ∉ inside, after.lenders thread = ledger.lenders thread)
  (closed : ∀ thread ∉ inside, ∀ lender ∈ after.lenders thread, lender.2 ∉ inside)
include bases lenders closed

/-- The sums of the threads outside do not look inside. -/
theorem Pools.of_frame {pooled : List (Policy × ThreadId)} {total result : Int}
    (h : ledger.Pools pooled total result) (outside : ∀ lender ∈ pooled, lender.2 ∉ inside) :
    after.Pools pooled total result := by
  induction h with
  | nil => exact .nil
  | @cons policy lender rest total donated result _ _ ihLender ihRest =>
    have hl : lender ∉ inside := outside (policy, lender) List.mem_cons_self
    have given : after.Pools (after.lenders lender) (after.record lender).base donated := by
      rw [bases lender hl, lenders lender hl]
      exact ihLender (lenders lender hl ▸ closed lender hl)
    exact .cons given (ihRest fun other ho => outside other (List.mem_cons_of_mem _ ho))

theorem Weighs.of_frame {weight : Int} (h : ledger.Weighs thread weight)
    (outside : thread ∉ inside) : after.Weighs thread weight := by
  rw [Weighs, bases thread outside, lenders thread outside]
  exact Pools.of_frame inside bases lenders closed h
    (lenders thread outside ▸ closed thread outside)

end Frame

/-- Who lends to a thread does not depend on weights kept. -/
theorem lenders_of_bare (h : after.bare = ledger.bare) (thread : ThreadId) :
    after.lenders thread = ledger.lenders thread :=
  lenders_congr (owned_of_bare h thread) fun id _ => lendersAt_congr (by rw [queue?_of_bare h])

theorem Pools.of_bare (h : after.bare = ledger.bare) {pooled : List (Policy × ThreadId)}
    {total result : Int} (pools : ledger.Pools pooled total result) :
    after.Pools pooled total result :=
  Pools.of_frame ∅ (fun thread _ => base_of_bare h thread)
    (fun thread _ => lenders_of_bare h thread) (fun _ _ _ _ hm => hm.elim) pools
    (fun _ _ hm => hm.elim)

theorem Weighs.of_bare (h : after.bare = ledger.bare) {weight : Int}
    (weighs : ledger.Weighs thread weight) : after.Weighs thread weight := by
  rw [Weighs, lenders_of_bare h, base_of_bare h]
  exact Pools.of_bare h weighs

/-- The weights kept stay right if nothing is kept for a set of threads that lend to each other
and to nobody else, and the other threads keep their base weights and their lenders. -/
theorem Coherent.of_frame (coherent : ledger.Coherent) (inside : Set ThreadId)
    (linked : after.Linked) (cleared : ∀ thread ∈ inside, (after.record thread).memo = none)
    (memos : ∀ thread ∉ inside, (after.record thread).memo = (ledger.record thread).memo)
    (bases : ∀ thread ∉ inside, (after.record thread).base = (ledger.record thread).base)
    (lenders : ∀ thread ∉ inside, after.lenders thread = ledger.lenders thread)
    (closed : after.Closed inside) : after.Coherent := by
  intro thread weight kept
  have outside : thread ∉ inside := fun hm => by simp [cleared thread hm] at kept
  rw [memos thread outside] at kept
  refine Weighs.of_frame inside bases lenders (fun b hb lender hl hm => hb ?_)
    (coherent thread weight kept) outside
  exact closed lender.2 b (linked.lends_iff_mem_lenders.mpr ⟨lender.1, hl⟩) hm

end Turnstile.Ledger
