import Turnstile.Proofs.Tables.Strangers

/-!
# What is left of a thread that leaves

A thread that leaves cleans up from its own record only. As queues and records say the same, that
is all that there is of it: no queue names it afterwards (`Erased`), and nothing else is different
in queues and records but weights kept.

* **Lending** (`Ledger.donors_dismiss`): the edges of the thread go, and no others. A chain that
  came through it is cut there, so that those it lent to lose the thread and all its donors.
  Everybody else keeps the donors that they had, the thread's own lenders among them.
* **`forget_erases`**: for all reachable tables, with what everybody weighs afterwards, and what
  becomes of the thread when it leaves again or is dealt with again.
-/

namespace Turnstile

open Relation

namespace Ledger

variable {ledger : Ledger} {thread other donor : ThreadId}

/-- A thread that keeps a donor of the one that leaves is itself a donor of that one: it comes
before it on the donor's way. -/
theorem reaches_of_dismissed (linked : ledger.Linked)
    (path : ReflTransGen (ledger.dismiss thread).Lends donor other)
    (through : ReflTransGen ledger.Lends donor thread) :
    ReflTransGen ledger.Lends other thread := by
  induction path using ReflTransGen.head_induction_on with
  | refl => exact through
  | @head donor next lends rest ih =>
    obtain ⟨lends, ne, -⟩ := lends_dismiss_iff.mp lends
    -- lending does not part, so the way to the thread goes on along this one
    rcases ReflTransGen.cases_head through with same | ⟨step, lends', walk⟩
    · exact absurd same ne
    · obtain rfl := linked.lends_rightUnique lends lends'
      exact ih walk

/-- When a thread leaves, another one keeps the donors that do not lend to it through the thread
that leaves. -/
theorem donors_dismiss (linked : ledger.Linked) (acyclic : ledger.Acyclic) (ne : other ≠ thread) :
    ReflTransGen (ledger.dismiss thread).Lends donor other ↔
      ReflTransGen ledger.Lends donor other ∧
        ¬ (ReflTransGen ledger.Lends donor thread ∧ ReflTransGen ledger.Lends thread other) := by
  constructor
  · intro path
    refine ⟨ReflTransGen.mono (fun _ _ lends => (lends_dismiss_iff.mp lends).1) _ _ path, ?_⟩
    rintro ⟨through, onward⟩
    have back := reaches_of_dismissed linked path through
    rcases reflTransGen_iff_eq_or_transGen.mp onward with same | onward
    · exact ne same
    · exact acyclic thread (onward.trans_left back)
  · rintro ⟨path, apart⟩
    induction path using ReflTransGen.head_induction_on with
    | refl => exact .refl
    | @head donor next lends rest ih =>
      refine .head (lends_dismiss_iff.mpr ⟨lends, ?_, ?_⟩)
        (ih fun ⟨through, onward⟩ => apart ⟨.head lends through, onward⟩)
      · rintro rfl
        exact apart ⟨.refl, .head lends rest⟩
      · rintro rfl
        exact apart ⟨.single lends, rest⟩

end Ledger

namespace Tables

open Ledger

variable {tables after : Tables} {thread other : ThreadId}

/-- The thread is gone, and nothing else is different in queues and records but weights kept. -/
structure Erased (tables after : Tables) (thread : ThreadId) : Prop where
  unknown : after.knows thread = false
  unnamed : ∀ id queue, after.queues.get? id = some queue →
    queue.owner ≠ some thread ∧ thread ∉ queue.waiting
  /-- A queue that the thread owned is left without owner, and its waiters stay in order. -/
  released : ∀ id queue, tables.queues.get? id = some queue → queue.owner = some thread →
    after.queues.get? id = some { queue with owner := none }
  /-- The queue that the thread waited on keeps its owner, and its other waiters stay in order. -/
  left : ∀ id queue, tables.queues.get? id = some queue → thread ∈ queue.waiting →
    after.queues.get? id = some { queue with waiting := queue.waiting.filter (· ≠ thread) }
  queues : ∀ id queue, tables.queues.get? id = some queue → queue.owner ≠ some thread →
    thread ∉ queue.waiting → after.queues.get? id = some queue
  live : ∀ id, (after.queues.get? id).isSome = (tables.queues.get? id).isSome
  size : after.queues.size = tables.queues.size
  knows : ∀ other, other ≠ thread → after.knows other = tables.knows other
  base : ∀ other, other ≠ thread → (after.state other).base = (tables.state other).base
  owned : ∀ other, other ≠ thread → (after.state other).owned = (tables.state other).owned
  waitingOn : ∀ other, other ≠ thread →
    (after.state other).waitingOn = (tables.state other).waitingOn
  enqueuedAt : ∀ other, other ≠ thread →
    (after.state other).enqueuedAt = (tables.state other).enqueuedAt
  policy : after.policy = tables.policy
  stamp : after.stamp = tables.stamp
  generator : after.generator = tables.generator

/-- Dropping a record does to the tables what the dismissal does to their ledger. -/
theorem Sound.erased (sound : tables.Sound) (h : tables.forget thread = .ok after)
    (bare : after.ledger.bare = (tables.ledger.dismiss thread).bare) :
    Erased tables after thread := by
  have queues : ∀ id, after.queues.get? id = (tables.queues.get? id).map fun queue =>
      { queue with
        owner := if queue.owner = some thread then none else queue.owner
        waiting := queue.waiting.filter (· ≠ thread) } :=
    fun id => congrFun (queue?_of_bare bare) id
  have apart : ∀ {id queue}, tables.queues.get? id = some queue → queue.owner = some thread →
      thread ∉ queue.waiting := by
    intro id queue live owns
    have live' : tables.ledger.queue? id = some queue := live
    rw [← owner?_of_queue? live'] at owns
    rw [← waiters_of_queue? live']
    exact sound.linked.owner_not_waiting id thread owns
  have records : ∀ other, other ≠ thread →
      (after.state other).bare = (tables.state other).bare := by
    intro other ne
    have same : (after.state other).bare = ((tables.ledger.dismiss thread).record other).bare :=
      record_of_bare bare other
    rw [same, record_dismiss, if_neg (Ne.symm ne)]
    rfl
  -- What the ledger does not show: who has a record, how many queues there are, and the generator.
  obtain ⟨unknown, size⟩ := forgets h
  obtain ⟨knows, generator⟩ := forget_spares h
  exact
    { unknown, size, knows, generator
      unnamed := by
        intro id queue live
        rw [queues] at live
        obtain ⟨former, -, rfl⟩ := Option.map_eq_some_iff.mp live
        refine ⟨fun owns => ?_, by simp⟩
        dsimp only at owns
        split at owns
        · cases owns
        · contradiction
      released := by
        intro id queue live owns
        rw [queues, live, Option.map_some, if_pos owns, filter_of_notMem (apart live owns)]
      left := by
        intro id queue live waits
        rw [queues, live, Option.map_some, if_neg fun owns => apart live owns waits]
      queues := by
        intro id queue live foreign absent
        rw [queues, live, Option.map_some, if_neg foreign, filter_of_notMem absent]
      live := by
        intro id
        rw [queues, Option.isSome_map]
      base := fun other ne => (ThreadState.bare_eq_iff.mp (records other ne)).1
      owned := fun other ne => (ThreadState.bare_eq_iff.mp (records other ne)).2.1
      enqueuedAt := fun other ne => (ThreadState.bare_eq_iff.mp (records other ne)).2.2.1
      waitingOn := fun other ne => (ThreadState.bare_eq_iff.mp (records other ne)).2.2.2
      policy := policy_of_bare bare
      stamp := stamp_of_bare bare }

/-- What another thread weighs when a thread leaves: if it had that thread as a donor it loses it
with all of its donors, and otherwise it weighs what it did. -/
theorem Sound.weighs_without (sound : tables.Sound) (sound' : after.Sound)
    (erased : Erased tables after thread)
    (bare : after.ledger.bare = (tables.ledger.dismiss thread).bare)
    {subtree : Finset ThreadId}
    (mem : ∀ donor, donor ∈ subtree ↔ ReflTransGen tables.ledger.Lends donor thread)
    (ne : other ≠ thread) :
    ∃ donors before later, tables.WeighsWith other donors before ∧
      after.WeighsWith other (if thread ∈ donors then donors \ subtree else donors) later ∧
      (thread ∉ donors → later = before) := by
  obtain ⟨donors, before, weighs⟩ := sound.weighsWith other
  obtain ⟨donors', later, weighs'⟩ := sound'.weighsWith other
  have same : donors' = if thread ∈ donors then donors \ subtree else donors := by
    ext donor
    rw [weighs'.donor_iff, lends_congr (queue?_of_bare bare),
      donors_dismiss sound.linked sound.acyclic ne, ← weighs.donor_iff, ← weighs.donor_iff, ← mem]
    by_cases donates : thread ∈ donors <;> simp [donates]
  subst same
  refine ⟨donors, before, later, weighs, weighs', fun foreign => ?_⟩
  have together := weighs'.together
  rw [if_neg foreign, erased.policy] at together
  refine together.unique (weighs.together.congr fun donor donates => ?_)
  exact (erased.base donor fun same => foreign (same ▸ donates)).symm

/-- In reachable tables any thread can leave, known or not. It is erased then and nothing else is;
those who had it as a donor lose it with all of its donors, and everybody else weighs the same. To
leave again changes nothing. Until a call names the thread there is no record of it, and to whoever
asks it is a new one. -/
theorem forget_erases (reachable : tables.Reachable) (thread : ThreadId) :
    ∃ after, tables.forget thread = .ok after ∧ Erased tables after thread ∧
      (∃ subtree lent, tables.WeighsWith thread subtree lent ∧
        ∀ other, other ≠ thread → ∃ donors before later, tables.WeighsWith other donors before ∧
          after.WeighsWith other (if thread ∈ donors then donors \ subtree else donors) later ∧
          (thread ∉ donors → later = before)) ∧
      after.forget thread = .ok after ∧
      ∀ calls later, (∀ call ∈ calls, call.thread? ≠ some thread) → run calls after = .ok later →
        later.knows thread = false ∧
        later.state thread = .fresh later.policy.defaultWeight ∧
        (later.baseOf thread).1 = later.policy.defaultWeight ∧
        ∃ now, later.effective thread = .ok (later.policy.defaultWeight, now) := by
  have sound := reachable.sound
  obtain ⟨after, ok, sound', bare⟩ := forget_ok sound thread
  have erased := sound.erased ok bare
  obtain ⟨subtree, lent, weighs⟩ := sound.weighsWith thread
  have again : after.forget thread = .ok after := by
    have none : after.threads.get? thread = none := by
      simpa [knows, Directory.contains] using erased.unknown
    rw [forget, none]
  refine ⟨after, ok, erased, ⟨subtree, lent, weighs, fun other ne =>
    sound.weighs_without sound' erased bare weighs.donor_iff ne⟩, again,
    fun calls later foreign ran => ?_⟩
  have reachable' : after.Reachable :=
    reachable.step (.forget thread) (by rw [Call.perform, ok]; rfl)
  have unknown := sound'.unknown_of_run ran foreign erased.unknown
  exact ⟨unknown, (reachable'.run ran).sound.asked_of_unknown unknown⟩

/-- The middle of a chain of three threads leaves, with another waiter behind it: the thread at the
end of the chain waits on without an owner, and the head keeps the other waiter only. -/
theorem forget_erases_middle :
    Arrives
      [.newQueue true, .newQueue true, .acquire (.pack 0 0) ⟨1⟩, .acquire (.pack 0 1) ⟨2⟩,
        .enqueue (.pack 0 0) ⟨2⟩, .setBase ⟨3⟩ 5, .enqueue (.pack 0 1) ⟨3⟩,
        .enqueue (.pack 0 0) ⟨4⟩, .effective ⟨1⟩]
      (fresh .priority 1)
      fun tables => ∃ after, tables.forget ⟨2⟩ = .ok after ∧
        after.queues.get? (.pack 0 0) = some ⟨.priority, true, some ⟨1⟩, [⟨4⟩]⟩ ∧
        after.queues.get? (.pack 0 1) = some ⟨.priority, true, none, [⟨3⟩]⟩ ∧
        (∃ subtree lent donors before later, tables.WeighsWith ⟨2⟩ subtree lent ∧
          tables.WeighsWith ⟨1⟩ donors before ∧ ⟨2⟩ ∈ donors ∧
          after.WeighsWith ⟨1⟩ (donors \ subtree) later) ∧
        after.state ⟨2⟩ = .fresh after.policy.defaultWeight := by
  refine .imp (P := fun tables =>
      tables.queues.get? (.pack 0 0) = some ⟨.priority, true, some ⟨1⟩, [⟨2⟩, ⟨4⟩]⟩ ∧
      tables.queues.get? (.pack 0 1) = some ⟨.priority, true, some ⟨2⟩, [⟨3⟩]⟩)
    (by decide +kernel) fun tables arrives ⟨front, back⟩ => ?_
  obtain ⟨after, ok, erased, ⟨subtree, lent, middle, weighs⟩, -, later⟩ :=
    forget_erases ((Reachable.fresh .priority 1).run arrives) ⟨2⟩
  obtain ⟨donors, before, rest, head, without, -⟩ := weighs ⟨1⟩ (by decide)
  have donates : ⟨2⟩ ∈ donors :=
    (head.donor_iff ⟨2⟩).mpr (.single ⟨.pack 0 0, _, front, rfl, by decide, rfl⟩)
  rw [if_pos donates] at without
  exact ⟨after, ok, erased.left _ _ front (by decide), erased.released _ _ back rfl,
    ⟨subtree, lent, donors, before, rest, middle, head, donates, without⟩,
    (later [] after (by simp) rfl).2.1⟩

end Tables

end Turnstile
