import Turnstile.Proofs.Tables.Invariants

/-!
# What a walk forgets

Whatever changes what a thread has to lend ends with a walk from that thread, on which weights kept
are forgotten. In reachable tables the walk always ends, and it has then come through the threads
that the first one lends to, directly or through others, and through no others.

* **`Tables.Donates`**: the donor's own record leads to the donee, by the queue that it waits on. In
  sound tables that is to say that the donor lends to the donee (`Sound.donates_iff`).
* **`get?_of_invalidate`**: what a walk leaves of each record.
* **`invalidation_exact`**: all of it, for reachable tables.
-/

namespace Turnstile.Tables

open Relation Ledger

variable {tables after : Tables} {thread other donor donee : ThreadId}

/-! ## Who comes next -/

/-- The donor waits on a donating queue, and the donee owns that queue. -/
def Donates (tables : Tables) (donor donee : ThreadId) : Prop :=
  ∃ id queue, (tables.state donor).waitingOn = some id ∧ tables.queues.get? id = some queue ∧
    queue.donation = true ∧ queue.owner = some donee

/-- A walk goes from donor to donee. -/
theorem hop_iff_donates : tables.ledger.Hop donor donee ↔ tables.Donates donor donee := by
  rw [Hop, donee?_eq_some_iff]
  constructor
  · rintro ⟨id, waits, donation, owns⟩
    cases live : tables.queues.get? id with
    | none => simp [owner?, ledger, live] at owns
    | some queue =>
      have live' : tables.ledger.queue? id = some queue := live
      rw [donates_of_queue? live'] at donation
      rw [owner?_of_queue? live'] at owns
      exact ⟨id, queue, waits, live, donation, owns⟩
  · rintro ⟨id, queue, waits, live, donation, owns⟩
    have live' : tables.ledger.queue? id = some queue := live
    exact ⟨id, waits, (donates_of_queue? live').trans donation, (owner?_of_queue? live').trans owns⟩

theorem hop_eq_donates (tables : Tables) : tables.ledger.Hop = tables.Donates := by
  funext donor donee
  exact propext hop_iff_donates

/-- Where both sides agree it makes no difference whether the record of the donor is asked
or the queues. -/
theorem Sound.donates_iff (sound : tables.Sound) :
    tables.Donates donor donee ↔ tables.ledger.Lends donor donee :=
  hop_iff_donates.symm.trans sound.linked.hop_iff

theorem mem_chain_iff : other ∈ tables.ledger.chain thread ↔
    ReflTransGen tables.Donates thread other := by
  rw [chain, hop_eq_donates]
  rfl

/-! ## What is left -/

theorem get?_eq_ite (tables : Tables) (thread : ThreadId) : tables.threads.get? thread =
    if tables.knows thread then some (tables.state thread) else none := by
  unfold knows Directory.contains
  cases known : tables.threads.get? thread with
  | none => rfl
  | some state => simp [state_of_get? known]

/-- There are records for the same threads before and after a walk, and each is as the
ledger says. -/
theorem get?_of_invalidate (h : tables.invalidate thread = .ok after)
    {f : ThreadState → ThreadState}
    (written : after.state other = f (tables.state other)) :
    after.threads.get? other = (tables.threads.get? other).map f := by
  rw [get?_eq_ite after, get?_eq_ite tables, knows_eq_of_bare (bare_of_invalidate h), written]
  split <;> rfl

theorem keys_bare (tables : Tables) : tables.bare.threads.keys = tables.threads.keys := by
  simp [bare, Directory.keys, Directory.map]

/-- In reachable tables a walk from any thread ends without a violation. The threads that
it has come through are the first one and all that it donates to, directly or through
others. Their records keep no weight any more, as far as they have records, and are
otherwise what they were. All other records are what they were, weights kept included, no
record is new or gone, and no queue, stamp, policy or generator has changed. The chain is
the same whether it is read off the records or off the queues. -/
theorem invalidation_exact (reachable : tables.Reachable) (thread : ThreadId) :
    ∃ after, tables.invalidate thread = .ok after ∧
      (∀ other, ReflTransGen tables.Donates thread other → after.threads.get? other =
        (tables.threads.get? other).map fun state => { state with memo := none }) ∧
      (∀ other, ¬ ReflTransGen tables.Donates thread other →
        after.threads.get? other = tables.threads.get? other) ∧
      after.threads.keys = tables.threads.keys ∧
      (after.policy = tables.policy ∧ after.queues = tables.queues ∧
        after.stamp = tables.stamp ∧ after.generator = tables.generator) ∧
      ∀ donor donee, tables.Donates donor donee ↔ tables.ledger.Lends donor donee := by
  have sound := reachable.sound
  obtain ⟨after, ended⟩ := invalidate_isOk sound.no_return thread
  -- All that a walk does is to clear its chain: it is seen in the ledger, and nowhere but in
  -- weights kept.
  have shown := bare_of_invalidate ended
  have cleared : ∀ other, after.state other =
      (tables.ledger.clear (tables.ledger.chain thread)).record other := fun other =>
    congrArg (·.record other) (ledger_of_invalidate ended)
  refine ⟨after, ended, fun other passed => ?_, fun other apart => ?_, ?_,
    ⟨congrArg (·.policy) shown, congrArg (·.queues) shown, congrArg (·.stamp) shown,
      congrArg (·.generator) shown⟩, fun donor donee => sound.donates_iff⟩
  · refine get?_of_invalidate ended ?_
    rw [cleared, record_clear_of_mem (mem_chain_iff.mpr passed)]
    rfl
  · rw [get?_of_invalidate (f := id) ended, Option.map_id, id]
    rw [cleared, record_clear_of_notMem (mt mem_chain_iff.mp apart)]
    rfl
  · rw [← keys_bare, shown, keys_bare]

/-- The middle of a chain of three threads, whose head has another queue, which does not donate: a
walk from there forgets the weight kept for the head, and keeps those of the thread at the end and
of the one that waits on the other queue. -/
theorem invalidation_exact_middle :
    Arrives
      [.newQueue true, .newQueue true, .newQueue false, .acquire (.pack 0 0) ⟨1⟩,
        .acquire (.pack 0 1) ⟨2⟩, .enqueue (.pack 0 0) ⟨2⟩, .setBase ⟨3⟩ 5,
          .enqueue (.pack 0 1) ⟨3⟩,
        .acquire (.pack 0 2) ⟨1⟩, .enqueue (.pack 0 2) ⟨4⟩, .effective ⟨1⟩, .effective ⟨4⟩]
      (fresh .priority 1)
      fun tables => ∃ after, tables.invalidate ⟨2⟩ = .ok after ∧
        after.threads.get? ⟨1⟩ = some ⟨1, none, [.pack 0 0, .pack 0 2], 0, none⟩ ∧
        after.threads.get? ⟨3⟩ = some ⟨5, some 5, [], 2, some (.pack 0 1)⟩ ∧
        after.threads.get? ⟨4⟩ = some ⟨1, some 1, [], 3, some (.pack 0 2)⟩ := by
  refine .imp (P := fun tables =>
      tables.threads.get? ⟨1⟩ = some ⟨1, some 5, [.pack 0 0, .pack 0 2], 0, none⟩ ∧
      tables.threads.get? ⟨3⟩ = some ⟨5, some 5, [], 2, some (.pack 0 1)⟩ ∧
      tables.threads.get? ⟨4⟩ = some ⟨1, some 1, [], 3, some (.pack 0 2)⟩ ∧
      tables.ledger.donee? ⟨2⟩ = some ⟨1⟩ ∧ tables.ledger.donee? ⟨1⟩ = none)
    (by decide +kernel) fun tables arrives ⟨first, third, fourth, donates, last⟩ => ?_
  obtain ⟨after, ended, passed, apart, -⟩ :=
    invalidation_exact ((Reachable.fresh .priority 1).run arrives) ⟨2⟩
  have path : ∀ other, ReflTransGen tables.Donates ⟨2⟩ other ↔ other = ⟨2⟩ ∨ other = ⟨1⟩ := by
    intro other
    rw [← mem_chain_iff, chain_of_hop donates, chain_of_donee?_eq_none last]
    rfl
  refine ⟨after, ended, ?_, ?_, ?_⟩
  · rw [passed ⟨1⟩ ((path ⟨1⟩).mpr (.inr rfl)), first]
    rfl
  · rw [apart ⟨3⟩ (mt (path ⟨3⟩).mp (by decide)), third]
  · rw [apart ⟨4⟩ (mt (path ⟨4⟩).mp (by decide)), fourth]

end Turnstile.Tables
