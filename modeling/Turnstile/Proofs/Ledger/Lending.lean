import Mathlib.Logic.Relation
import Turnstile.Proofs.Ledger.Consistent

/-!
# Who lends to whom

A thread that waits on a donating queue lends to the queue's owner (`Ledger.Lends`). In a linked
ledger a thread lends to one other at most, which its own record leads to (`Ledger.donee?`), so
lending runs along chains that can meet but never part.

* **`Ledger.Acyclic`**: nobody lends to itself, directly or through others. Moves that add no
  edge keep a ledger acyclic (`Acyclic.mono`).
* **New edges.** Joining adds one edge out of the thread that joins, and installing an owner
  adds edges into it. A ring that such a move closes comes through that thread
  (`Acyclic.of_new_edges`), which is why a walk from there is enough to find it.
-/

namespace Turnstile

open Relation

/-- If all new edges touch one element and nothing leads from there back to it, then no element
leads back to itself. -/
theorem not_transGen_of_new_edges {α : Type} {old new : α → α → Prop} {x : α}
    (edges : ∀ a b, new a b → old a b ∨ a = x ∨ b = x)
    (acyclic : ∀ a, ¬ TransGen old a a) (back : ¬ TransGen new x x) (a : α) :
    ¬ TransGen new a a := by
  -- a path that is not made of old edges alone comes through `x`
  have through : ∀ {a b}, TransGen new a b →
      TransGen old a b ∨ ReflTransGen new a x ∧ ReflTransGen new x b := by
    intro a b path
    induction path with
    | single edge =>
      rcases edges _ _ edge with h | rfl | rfl
      · exact .inl (.single h)
      · exact .inr ⟨.refl, .single edge⟩
      · exact .inr ⟨.single edge, .refl⟩
    | tail path edge ih =>
      rcases ih with h | ⟨before, after⟩
      · rcases edges _ _ edge with ho | rfl | rfl
        · exact .inl (h.tail ho)
        · exact .inr ⟨path.to_reflTransGen, .single edge⟩
        · exact .inr ⟨(path.tail edge).to_reflTransGen, .refl⟩
      · exact .inr ⟨before, after.tail edge⟩
  intro ring
  rcases through ring with h | ⟨before, after⟩
  · exact acyclic a h
  · exact back (TransGen.trans_right after (ring.trans_left before))

namespace Ledger

/-- The lender waits on a donating queue of the owner. -/
def Lends (ledger : Ledger) (lender owner : ThreadId) : Prop :=
  ∃ id queue, ledger.queue? id = some queue ∧ queue.donation = true ∧
    lender ∈ queue.waiting ∧ queue.owner = some owner

/-- Nobody lends to itself, directly or through others. -/
def Acyclic (ledger : Ledger) : Prop := ∀ thread, ¬ TransGen ledger.Lends thread thread

/-- The thread that a record leads to: the owner of the queue it waits on, if that donates. -/
def donee? (ledger : Ledger) (thread : ThreadId) : Option ThreadId :=
  (ledger.record thread).waitingOn.bind fun id =>
    if ledger.donates id then ledger.owner? id else none

/-- A walk goes from the first thread on to the second. -/
def Hop (ledger : Ledger) (thread next : ThreadId) : Prop := ledger.donee? thread = some next

/-- The threads that a walk from `thread` comes through. -/
def chain (ledger : Ledger) (thread : ThreadId) : Set ThreadId :=
  { other | ReflTransGen ledger.Hop thread other }

/-- Whoever a thread among `inside` lends to is among them too. -/
def Closed (ledger : Ledger) (inside : Set ThreadId) : Prop :=
  ∀ a b, ledger.Lends a b → a ∈ inside → b ∈ inside

variable {ledger after : Ledger} {id : QueueId} {thread a b : ThreadId} {queue : Queue}

/-! ## Edges -/

theorem lends_iff : ledger.Lends a b ↔
    ∃ id, ledger.donates id = true ∧ a ∈ ledger.waiters id ∧ ledger.owner? id = some b := by
  constructor
  · rintro ⟨id, queue, live, donation, waits, owns⟩
    refine ⟨id, ?_, ?_, ?_⟩
    · rwa [donates_of_queue? live]
    · rwa [waiters_of_queue? live]
    · rwa [owner?_of_queue? live]
  · rintro ⟨id, donation, waits, owns⟩
    cases live : ledger.queue? id with
    | none => simp [owner?, live] at owns
    | some queue =>
      rw [donates_of_queue? live] at donation
      rw [waiters_of_queue? live] at waits
      rw [owner?_of_queue? live] at owns
      exact ⟨id, queue, live, donation, waits, owns⟩

theorem lends_congr (h : after.queue? = ledger.queue?) : after.Lends = ledger.Lends := by
  funext a b
  simp only [Lends, h]

theorem hop_rightUnique (ledger : Ledger) : Relator.RightUnique ledger.Hop := by
  intro a b c hb hc
  exact Option.some.inj (hb.symm.trans hc)

theorem donee?_congr (queues : after.queue? = ledger.queue?)
    (same : (after.record a).waitingOn = (ledger.record a).waitingOn) :
    after.donee? a = ledger.donee? a := by
  unfold donee? donates owner?
  rw [same, queues]

theorem donee?_eq_some_iff : ledger.donee? a = some b ↔
    ∃ id, (ledger.record a).waitingOn = some id ∧ ledger.donates id = true ∧
      ledger.owner? id = some b := by
  unfold donee?
  cases (ledger.record a).waitingOn <;> simp

/-- In a linked ledger a walk goes along the edges. -/
theorem Linked.hop_iff (linked : ledger.Linked) : ledger.Hop a b ↔ ledger.Lends a b := by
  rw [Hop, donee?_eq_some_iff, lends_iff]
  constructor
  · rintro ⟨id, waits, rest⟩
    exact ⟨id, rest.1, (linked.waitingOn_iff a id).mp waits, rest.2⟩
  · rintro ⟨id, donation, waits, owns⟩
    exact ⟨id, (linked.waitingOn_iff a id).mpr waits, donation, owns⟩

theorem Linked.hop_eq (linked : ledger.Linked) : ledger.Hop = ledger.Lends := by
  funext a b
  exact propext linked.hop_iff

/-- A thread that lends waits on a queue. -/
theorem Linked.waitingOn_ne_none (linked : ledger.Linked) (h : ledger.Lends a b) :
    (ledger.record a).waitingOn ≠ none := by
  obtain ⟨id, -, waits, -⟩ := lends_iff.mp h
  rw [(linked.waitingOn_iff a id).mpr waits]
  simp

/-- A thread that is lent to owns a queue. -/
theorem Linked.owned_ne_nil (linked : ledger.Linked) (h : ledger.Lends a b) :
    (ledger.record b).owned ≠ [] := by
  obtain ⟨id, -, -, owns⟩ := lends_iff.mp h
  exact List.ne_nil_of_mem ((linked.owned_iff b id).mpr owns)

theorem self_mem_chain (ledger : Ledger) (thread : ThreadId) : thread ∈ ledger.chain thread :=
  .refl

/-- A chain goes on from each of its threads. -/
theorem mem_chain_of_mem (h : a ∈ ledger.chain thread) (hop : ledger.Hop a b) :
    b ∈ ledger.chain thread :=
  ReflTransGen.tail h hop

/-- A chain is closed where no edge is missing from the walk. -/
theorem closed_chain (edges : ∀ a b, after.Lends a b → ledger.Hop a b) (thread : ThreadId) :
    after.Closed (ledger.chain thread) :=
  fun a b lends h => mem_chain_of_mem h (edges a b lends)

theorem Closed.union {some others : Set ThreadId} (h : ledger.Closed some)
    (ho : ledger.Closed others) : ledger.Closed (some ∪ others) :=
  fun a b lends hm => hm.imp (h a b lends) (ho a b lends)

theorem closed_empty (ledger : Ledger) : ledger.Closed ∅ :=
  fun _ _ _ h => h.elim

/-- A chain is its first thread and the chain of the next. -/
theorem chain_of_hop {next : ThreadId} (h : ledger.Hop thread next) :
    ledger.chain thread = {thread} ∪ ledger.chain next := by
  ext other
  constructor
  · intro walk
    rcases ReflTransGen.cases_head walk with rfl | ⟨step, hop, rest⟩
    · exact .inl rfl
    · rw [ledger.hop_rightUnique hop h] at rest
      exact .inr rest
  · rintro (rfl | walk)
    · exact .refl
    · exact ReflTransGen.head h walk

theorem chain_of_donee?_eq_none (h : ledger.donee? thread = none) :
    ledger.chain thread = {thread} := by
  ext other
  constructor
  · intro walk
    rcases ReflTransGen.cases_head walk with rfl | ⟨step, hop, rest⟩
    · rfl
    · rw [Hop, h] at hop
      simp at hop
  · rintro rfl
    exact .refl

theorem hop_congr (queues : after.queue? = ledger.queue?)
    (same : ∀ a, (after.record a).waitingOn = (ledger.record a).waitingOn) :
    after.Hop = ledger.Hop := by
  funext a b
  rw [Hop, Hop, donee?_congr queues (same a)]

/-- Weights kept have no part in a walk. -/
theorem hop_of_bare (h : after.bare = ledger.bare) : after.Hop = ledger.Hop :=
  hop_congr (queue?_of_bare h) (waitingOn_of_bare h)

theorem chain_of_hop_eq (h : after.Hop = ledger.Hop) (thread : ThreadId) :
    after.chain thread = ledger.chain thread := by
  rw [chain, chain, h]

theorem chain_of_bare (h : after.bare = ledger.bare) (thread : ThreadId) :
    after.chain thread = ledger.chain thread :=
  chain_of_hop_eq (hop_of_bare h) thread

/-! ## Rings -/

theorem Acyclic.mono (acyclic : ledger.Acyclic)
    (edges : ∀ a b, after.Lends a b → ledger.Lends a b) : after.Acyclic :=
  fun thread ring => acyclic thread (TransGen.mono edges thread thread ring)

theorem Acyclic.of_new_edges (acyclic : ledger.Acyclic)
    (edges : ∀ a b, after.Lends a b → ledger.Lends a b ∨ a = thread ∨ b = thread)
    (back : ¬ TransGen after.Lends thread thread) : after.Acyclic :=
  not_transGen_of_new_edges edges acyclic back

theorem Acyclic.congr (acyclic : ledger.Acyclic) (h : after.queue? = ledger.queue?) :
    after.Acyclic := by
  rw [Acyclic, lends_congr h]
  exact acyclic

/-! ## What moves do to edges -/

theorem lends_of_vacate (h : (ledger.vacate id).Lends a b) : ledger.Lends a b := by
  obtain ⟨place, donation, waits, owns⟩ := lends_iff.mp h
  rw [donates_vacate] at donation
  rw [waiters_vacate] at waits
  rw [owner?_vacate] at owns
  split at owns
  · cases owns
  · exact lends_iff.mpr ⟨place, donation, waits, owns⟩

theorem lends_of_install (live : ledger.queue? id = some queue)
    (h : (ledger.install id thread).Lends a b) : ledger.Lends a b ∨ b = thread := by
  obtain ⟨place, donation, waits, owns⟩ := lends_iff.mp h
  rw [donates_install] at donation
  rw [waiters_install] at waits
  rw [owner?_install _ _ _ _ live] at owns
  split at owns
  · exact .inr (Option.some.inj owns).symm
  · exact .inl (lends_iff.mpr ⟨place, donation, waits, owns⟩)

theorem lends_of_place (unowned : queue.owner = none) (h : (ledger.place id queue).Lends a b) :
    ledger.Lends a b := by
  obtain ⟨place, donation, waits, owns⟩ := lends_iff.mp h
  rw [owner?_place] at owns
  rw [waiters_place] at waits
  by_cases hp : place = id
  · rw [if_pos hp, unowned] at owns
    cases owns
  · rw [if_neg hp] at owns waits
    have : (ledger.place id queue).donates place = ledger.donates place := by
      simp [donates, Ledger.place, hp]
    rw [this] at donation
    exact lends_iff.mpr ⟨place, donation, waits, owns⟩

theorem lends_of_close (h : (ledger.close id).Lends a b) : ledger.Lends a b := by
  obtain ⟨place, donation, waits, owns⟩ := lends_iff.mp h
  rw [owner?_close] at owns
  rw [waiters_close] at waits
  by_cases hp : place = id
  · rw [if_pos hp] at owns
    cases owns
  · rw [if_neg hp] at owns waits
    have : (ledger.close id).donates place = ledger.donates place := by
      simp [donates, Ledger.close, hp]
    rw [this] at donation
    exact lends_iff.mpr ⟨place, donation, waits, owns⟩

/-- A thread that joins lends to the owner, if the queue donates, and nothing else is new. -/
theorem lends_join_iff (live : ledger.queue? id = some queue) :
    (ledger.join id thread).Lends a b ↔
      ledger.Lends a b ∨ queue.donation = true ∧ a = thread ∧ queue.owner = some b := by
  simp only [lends_iff, donates_join, owner?_join, waiters_join _ _ _ _ live]
  constructor
  · rintro ⟨place, donation, waits, owns⟩
    by_cases h : place = id
    · rw [if_pos h] at waits
      rcases List.mem_append.mp waits with waits | new
      · exact .inl ⟨place, donation, h ▸ waits, owns⟩
      · refine .inr ⟨?_, List.mem_singleton.mp new, ?_⟩
        · rw [← donates_of_queue? live, ← h, donation]
        · rw [← owner?_of_queue? live, ← h, owns]
    · rw [if_neg h] at waits
      exact .inl ⟨place, donation, waits, owns⟩
  · rintro (⟨place, donation, waits, owns⟩ | ⟨donation, rfl, owns⟩)
    · refine ⟨place, donation, ?_, owns⟩
      split
      · rename_i h
        exact List.mem_append_left _ (h ▸ waits)
      · exact waits
    · refine ⟨id, ?_, by simp, ?_⟩
      · rw [donates_of_queue? live, donation]
      · rw [owner?_of_queue? live, owns]

theorem lends_of_join (live : ledger.queue? id = some queue)
    (h : (ledger.join id thread).Lends a b) : ledger.Lends a b ∨ a = thread :=
  ((lends_join_iff live).mp h).imp_right fun new => new.2.1

theorem lends_of_withdraw (h : (ledger.withdraw id thread).Lends a b) : ledger.Lends a b := by
  obtain ⟨place, donation, waits, owns⟩ := lends_iff.mp h
  rw [donates_withdraw] at donation
  rw [owner?_withdraw] at owns
  rw [waiters_withdraw] at waits
  refine lends_iff.mpr ⟨place, donation, ?_, owns⟩
  split at waits
  · rename_i hp
    exact hp ▸ List.mem_of_mem_erase waits
  · exact waits

/-- Only edges of the thread that leaves are gone. -/
theorem lends_dismiss_iff :
    (ledger.dismiss thread).Lends a b ↔ ledger.Lends a b ∧ a ≠ thread ∧ b ≠ thread := by
  simp only [lends_iff, donates_dismiss, waiters_dismiss, owner?_dismiss, List.mem_filter,
    decide_eq_true_eq]
  constructor
  · rintro ⟨place, donation, ⟨waits, ha⟩, owns⟩
    split at owns
    · cases owns
    · rename_i foreign
      refine ⟨⟨place, donation, waits, owns⟩, ha, ?_⟩
      rintro rfl
      exact foreign owns
  · rintro ⟨⟨place, donation, waits, owns⟩, ha, hb⟩
    refine ⟨place, donation, ⟨waits, ha⟩, ?_⟩
    rw [owns, if_neg fun same => hb (Option.some.inj same)]

end Ledger

end Turnstile
