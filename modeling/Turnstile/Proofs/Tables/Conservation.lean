import Mathlib.Algebra.BigOperators.Group.Finset.Sigma
import Mathlib.Order.WellFoundedSet
import Turnstile.Proofs.Tables.Donation

/-!
# No ticket is lost

Lending runs along chains that meet but never part, and never come back. So each known thread is a
donor of exactly one **root** (`Tables.IsRoot`), a thread that does not lend at present, and the
known threads fall into one tree of donors for each root.

* **A root for everyone** (`Sound.exists_root`, `Sound.root_unique`): walking on from any thread
  ends, because there are finitely many threads and no rings, and ends in one place.
* **`tickets_conserved`**: under lottery, what all roots weigh is the sum of the base weights of
  all known threads, as long as that sum is a weight. No root is cut off then, since its donors
  are only some of the known threads.
-/

namespace Turnstile.Tables

open Relation Ledger

/-- The threads that have a record. -/
def known (tables : Tables) : Finset ThreadId := tables.threads.keys.toFinset

/-- The thread does not wait on a donating queue that has an owner. -/
def IsRoot (tables : Tables) (thread : ThreadId) : Prop :=
  ∀ id queue, (tables.state thread).waitingOn = some id → tables.queues.get? id = some queue →
    queue.donation = true → queue.owner = none

variable {tables : Tables} {thread root : ThreadId}

theorem mem_known : thread ∈ tables.known ↔ tables.knows thread = true := by
  rw [known, List.mem_toFinset, knows, Directory.contains_iff_mem_keys]

/-- Roots are the threads that lend to nobody. -/
theorem isRoot_iff_donee? :
    tables.IsRoot thread ↔ tables.donee? (tables.state thread) = none := by
  unfold IsRoot donee?
  cases (tables.state thread).waitingOn with
  | none => simp
  | some id =>
    simp only [Option.some.injEq, forall_eq', forall_comm (α := Queue)]
    cases tables.queues.get? id <;> simp

instance : DecidablePred tables.IsRoot := fun _ => decidable_of_iff _ isRoot_iff_donee?.symm

/-- The known threads that lend to nobody. -/
def roots (tables : Tables) : Finset ThreadId := tables.known.filter tables.IsRoot

namespace Sound

variable (sound : tables.Sound)
include sound

theorem isRoot_iff : tables.IsRoot thread ↔ ∀ owner, ¬ tables.ledger.Lends thread owner := by
  rw [isRoot_iff_donee?, donee?_state, Option.eq_none_iff_forall_ne_some]
  exact forall_congr' fun owner => not_congr sound.linked.hop_iff

theorem lender_known {lender owner : ThreadId} (lends : tables.ledger.Lends lender owner) :
    lender ∈ tables.known :=
  mem_known.mpr (knows_of_waitingOn (sound.linked.waitingOn_ne_none lends))

theorem owner_known {lender owner : ThreadId} (lends : tables.ledger.Lends lender owner) :
    owner ∈ tables.known :=
  mem_known.mpr (knows_of_owned (sound.linked.owned_ne_nil lends))

/-- The donors of a known thread are known. -/
theorem donor_known {donor : ThreadId} (hk : thread ∈ tables.known)
    (path : ReflTransGen tables.ledger.Lends donor thread) : donor ∈ tables.known := by
  rcases ReflTransGen.cases_head path with rfl | ⟨next, lends, -⟩
  · exact hk
  · exact sound.lender_known lends

/-- Every known thread is a donor of some root. -/
theorem exists_root (hk : thread ∈ tables.known) :
    ∃ root ∈ tables.roots, ReflTransGen tables.ledger.Lends thread root := by
  -- among finitely many threads without a ring, going on to the next is well-founded
  have order : IsStrictOrder ThreadId fun a b => TransGen tables.ledger.Lends b a :=
    { irrefl := sound.acyclic
      trans := fun a b c hab hbc => hbc.trans hab }
  have wf := tables.known.wellFoundedOn (r := fun a b => TransGen tables.ledger.Lends b a)
  refine wf.induction (P := fun thread => ∃ root ∈ tables.roots,
    ReflTransGen tables.ledger.Lends thread root) hk fun thread hk ih => ?_
  by_cases last : tables.IsRoot thread
  · exact ⟨thread, Finset.mem_filter.mpr ⟨hk, last⟩, .refl⟩
  · rw [sound.isRoot_iff] at last
    obtain ⟨owner, lends⟩ := not_forall_not.mp last
    obtain ⟨root, hr, path⟩ := ih owner (sound.owner_known lends) (.single lends)
    exact ⟨root, hr, .head lends path⟩

/-- A thread is a donor of one root only. -/
theorem root_unique {other : ThreadId} (hr : root ∈ tables.roots) (ho : other ∈ tables.roots)
    (path : ReflTransGen tables.ledger.Lends thread root)
    (path' : ReflTransGen tables.ledger.Lends thread other) : root = other := by
  -- one of the two is a donor of the other, but neither lends
  have still : ∀ {a b}, a ∈ tables.roots → ReflTransGen tables.ledger.Lends a b → a = b := by
    intro a b ha walk
    rcases ReflTransGen.cases_head walk with rfl | ⟨next, lends, -⟩
    · rfl
    · exact absurd lends (sound.isRoot_iff.mp (Finset.mem_filter.mp ha).2 next)
  rcases ReflTransGen.total_of_right_unique sound.linked.lends_rightUnique path path' with h | h
  · exact still hr h
  · exact (still ho h).symm

end Sound

/-- Among tables under lottery whose tickets make a weight, what the roots weigh is what all known
threads bring in, each being a donor of one root. -/
theorem tickets_conserved (reachable : tables.Reachable) (lottery : tables.policy = .lottery)
    (few : ∑ thread ∈ tables.known, (tables.state thread).base ≤ Weight.greatest) :
    ∃ weight : ThreadId → Int,
      (∀ other, tables.ledger.Weighing other ↔ other = weight) ∧
      (∀ thread, ∃ after, tables.effective thread = .ok (weight thread, after)) ∧
      (∀ thread ∈ tables.known,
        ∃! root, root ∈ tables.roots ∧ ReflTransGen tables.ledger.Lends thread root) ∧
      ∑ root ∈ tables.roots, weight root =
        ∑ thread ∈ tables.known, (tables.state thread).base := by
  have sound := reachable.sound
  have legal := sound.consistent.base_legal
  choose donors weight mem asked weighs together using sound.donors_together
  simp only [lottery] at together
  choose! root hroot path using fun thread => @Sound.exists_root tables thread sound
  refine ⟨weight, weighing_iff weighs, asked, fun thread hk => ?_, ?_⟩
  · exact ⟨root thread, ⟨hroot thread hk, path thread hk⟩, fun other ho =>
      sound.root_unique ho.1 (hroot thread hk) ho.2 (path thread hk)⟩
  · rw [← Finset.sum_fiberwise_of_maps_to (fun thread hk => hroot thread hk)]
    refine Finset.sum_congr rfl fun top ht => ?_
    have fiber : donors top = tables.known.filter (root · = top) := by
      ext donor
      rw [mem, Finset.mem_filter]
      constructor
      · intro walk
        have hk := sound.donor_known (Finset.mem_filter.mp ht).1 walk
        exact ⟨hk, sound.root_unique (hroot donor hk) ht (path donor hk) walk⟩
      · rintro ⟨hk, rfl⟩
        exact path donor hk
    have part : ∑ donor ∈ donors top, (tables.state donor).base ≤ Weight.greatest := by
      rw [fiber]
      exact (Finset.sum_le_sum_of_subset_of_nonneg (Finset.filter_subset _ _)
        fun donor _ _ => Policy.base_nonneg legal donor).trans few
    rw [← fiber]
    exact (together top).trans (min_eq_right part)

/-- A chain of three threads, a thread behind a queue that does not donate, and one behind a queue
that nobody owns: three roots and all tickets. -/
theorem tickets_conserved_nested :
    Arrives
      [.newQueue true, .newQueue true, .newQueue false, .newQueue true,
        .acquire (.pack 0 0) ⟨1⟩, .acquire (.pack 0 1) ⟨2⟩, .acquire (.pack 0 2) ⟨1⟩,
        .enqueue (.pack 0 0) ⟨2⟩, .setBase ⟨3⟩ 5, .enqueue (.pack 0 1) ⟨3⟩,
        .setBase ⟨4⟩ 7, .enqueue (.pack 0 2) ⟨4⟩, .enqueue (.pack 0 3) ⟨5⟩, .effective ⟨1⟩]
      (fresh .lottery 0)
      fun tables => ∃ weight : ThreadId → Int,
        (∀ thread, ∃ after, tables.effective thread = .ok (weight thread, after)) ∧
        tables.roots = {⟨1⟩, ⟨4⟩, ⟨5⟩} ∧ ∑ root ∈ tables.roots, weight root = 15 := by
  refine .imp (P := fun tables => tables.policy = .lottery ∧
      tables.roots = {⟨1⟩, ⟨4⟩, ⟨5⟩} ∧
      ∑ thread ∈ tables.known, (tables.state thread).base = 15)
    (by decide +kernel) fun tables arrives ⟨lottery, three, sum⟩ => ?_
  obtain ⟨weight, -, asked, -, conserved⟩ := tickets_conserved
    ((Reachable.fresh .lottery 0).run arrives) lottery (by rw [sum]; decide)
  exact ⟨weight, asked, three, conserved.trans sum⟩

end Turnstile.Tables
