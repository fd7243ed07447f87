import Turnstile.Proofs.Tables.Counting
import Turnstile.Proofs.Tables.Parting

/-!
# Who takes a queue over

* **What changes** (`Tables.Handed`): the winner leaves the waiters and owns the queue, the former
  owner owns it no more, and nothing else is different in queues and records but weights kept.
* **What waiters weigh** (`Sound.weighs_waiter`): those left behind lend to nobody, or to the
  winner, who lends to nobody. Either way whoever lends to them is who did, so they weigh what
  they weighed.
* **Who wins** (`hands_over_by_priority`): under priority the waiter that brings most into the
  choice, and the earliest among those. Weights are those from before the hand-over, for the first
  step of it, that the owner gives the queue up, leaves what waiters weigh.
-/

namespace Turnstile

open Relation

namespace Ledger

variable {ledger : Ledger} {id : QueueId} {queue : Queue} {winner : Option ThreadId}
  {thread a b : ThreadId}

/-! ## Edges after a hand-over -/

/-- The edges along the queue are gone, and those who still wait on it lend to the winner. -/
theorem lends_handOn_iff (live : ledger.queue? id = some queue) (linked : ledger.Linked) :
    (ledger.handOn id winner).Lends a b ↔ ledger.Lends a b ∧ a ∉ ledger.waiters id ∨
      ledger.donates id = true ∧ winner = some b ∧ a ∈ (ledger.waiters id).erase b := by
  simp only [lends_iff, owner?_handOn _ _ _ live, waiters_handOn, donates_handOn]
  constructor
  · rintro ⟨place, donation, waits, owns⟩
    by_cases here : place = id
    · subst here
      rw [if_pos rfl] at waits owns
      subst owns
      exact .inr ⟨donation, rfl, waits⟩
    · rw [if_neg here] at waits owns
      refine .inl ⟨⟨place, donation, waits, owns⟩, fun waits' => here ?_⟩
      have first := (linked.waitingOn_iff a place).mpr waits
      exact Option.some.inj (first.symm.trans ((linked.waitingOn_iff a id).mpr waits'))
  · rintro (⟨⟨place, donation, waits, owns⟩, off⟩ | ⟨donation, rfl, waits⟩)
    · have ne : place ≠ id := fun same => off (same ▸ waits)
      refine ⟨place, donation, ?_, ?_⟩
      · rwa [if_neg ne]
      · rwa [if_neg ne]
    · refine ⟨id, donation, ?_, ?_⟩
      · rwa [if_pos rfl]
      · rw [if_pos rfl]

/-- Whoever waits on one queue lends through that queue only. -/
theorem Linked.same_owner (linked : ledger.Linked) (ha : a ∈ ledger.waiters id)
    (hb : b ∈ ledger.waiters id) {owner : ThreadId} (lends : ledger.Lends a owner) :
    ledger.Lends b owner := by
  obtain ⟨place, donation, waits, owns⟩ := lends_iff.mp lends
  have first := (linked.waitingOn_iff a place).mpr waits
  obtain rfl := Option.some.inj (first.symm.trans ((linked.waitingOn_iff a id).mpr ha))
  exact lends_iff.mpr ⟨place, donation, hb, owns⟩

/-- The winner, which waits no more, lends to nobody. -/
theorem winner_lends_not (live : ledger.queue? id = some queue) (linked : ledger.Linked)
    (waits : thread ∈ ledger.waiters id) (other : ThreadId) :
    ¬ (ledger.handOn id (some thread)).Lends thread other := by
  intro lends
  rcases (lends_handOn_iff live linked).mp lends with ⟨-, off⟩ | ⟨-, same, left⟩
  · exact off waits
  · obtain rfl := Option.some.inj same
    exact (linked.waiters_nodup id).not_mem_erase left

/-- A waiter that is not chosen has the donors that it had. -/
theorem donors_handOn (live : ledger.queue? id = some queue) (linked : ledger.Linked)
    (acyclic : ledger.Acyclic) (among : ∀ other, winner = some other → other ∈ ledger.waiters id)
    (waits : thread ∈ ledger.waiters id) (lost : winner ≠ some thread) {donor : ThreadId} :
    ReflTransGen (ledger.handOn id winner).Lends donor thread ↔
      ReflTransGen ledger.Lends donor thread := by
  constructor <;> intro path
  · -- no way leads through the winner
    induction path using ReflTransGen.head_induction_on with
    | refl => exact .refl
    | @head donor next lends rest ih =>
      rcases (lends_handOn_iff live linked).mp lends with ⟨lends, -⟩ | ⟨-, rfl, -⟩
      · exact .head lends ih
      · rcases ReflTransGen.cases_head rest with same | ⟨other, lends, -⟩
        · exact absurd (congrArg some same) lost
        · exact absurd lends (winner_lends_not live linked (among next rfl) other)
  · -- no way leads through another waiter, which lends to whom the thread itself lends to
    induction path using ReflTransGen.head_induction_on with
    | refl => exact .refl
    | @head donor next lends rest ih =>
      refine .head ((lends_handOn_iff live linked).mpr (.inl ⟨lends, fun here => ?_⟩)) ih
      exact acyclic thread (.head' (linked.same_owner here waits lends) rest)

end Ledger

namespace Tables

open Ledger

variable {tables after : Tables} {id : QueueId} {queue : Queue} {winner : Option ThreadId}
  {thread : ThreadId}

/-- The queue has been handed to the winner, if there is one, and is left without owner otherwise.
Weights kept apart, nothing else is different in queues and records. -/
structure Handed (tables after : Tables) (id : QueueId) (queue : Queue)
    (winner : Option ThreadId) : Prop where
  /-- The winner is taken from the waiters, which stay in order. -/
  place : after.queues.get? id = some
    { queue with owner := winner, waiting := winner.elim queue.waiting queue.waiting.erase }
  queues : ∀ other, other ≠ id → after.queues.get? other = tables.queues.get? other
  takes : ∀ thread, winner = some thread →
    (after.state thread).owned = (tables.state thread).owned ++ [id] ∧
      (after.state thread).waitingOn = none
  /-- The former owner does not own the queue any more, and owns everything else that it did. -/
  gives : ∀ former, queue.owner = some former →
    (after.state former).owned = (tables.state former).owned.filter (· ≠ id)
  owned : ∀ thread, winner ≠ some thread → queue.owner ≠ some thread →
    (after.state thread).owned = (tables.state thread).owned
  waitingOn : ∀ thread, winner ≠ some thread →
    (after.state thread).waitingOn = (tables.state thread).waitingOn
  base : ∀ thread, (after.state thread).base = (tables.state thread).base
  enqueuedAt : ∀ thread, (after.state thread).enqueuedAt = (tables.state thread).enqueuedAt
  policy : after.policy = tables.policy
  stamp : after.stamp = tables.stamp

/-- A hand-over does to the tables what the move does to their ledger. -/
theorem handed_of_bare (linked : tables.ledger.Linked) (live : tables.queues.get? id = some queue)
    (among : ∀ other, winner = some other → other ∈ queue.waiting)
    (bare : after.ledger.bare = (tables.ledger.handOn id winner).bare) :
    Handed tables after id queue winner := by
  have live' : tables.ledger.queue? id = some queue := live
  have owns : ∀ thread, id ∈ (tables.state thread).owned ↔ queue.owner = some thread := by
    intro thread
    rw [← owner?_of_queue? live']
    exact linked.owned_iff thread id
  have apart : ∀ thread, winner = some thread → queue.owner ≠ some thread := by
    intro thread won own
    rw [← owner?_of_queue? live'] at own
    refine linked.owner_not_waiting id thread own ?_
    rw [waiters_of_queue? live']
    exact among thread won
  have queues : ∀ other, after.queues.get? other = _ := fun other =>
    (congrFun (queue?_of_bare bare) other).trans (queue?_handOn tables.ledger id other live' winner)
  have kept : ∀ thread, queue.owner ≠ some thread →
      (tables.state thread).owned.filter (· ≠ id) = (tables.state thread).owned :=
        fun thread foreign =>
    congrArg (·.owned) (ThreadState.detach_of_notMem fun own => foreign ((owns thread).mp own))
  have owned : ∀ thread, (after.state thread).owned = (tables.state thread).owned.filter
    (· ≠ id) ++ _ :=
    fun thread => (owned_of_bare bare thread).trans (owned_handOn tables.ledger id winner thread)
  have waitingOn : ∀ thread, (after.state thread).waitingOn = _ := fun thread =>
    (waitingOn_of_bare bare thread).trans (waitingOn_handOn tables.ledger id winner thread)
  exact
    { place := (queues id).trans (if_pos rfl)
      queues := fun other ne => (queues other).trans (if_neg ne)
      takes := by
        intro thread won
        refine ⟨?_, (waitingOn thread).trans (if_pos won)⟩
        rw [owned, kept thread (apart thread won), if_pos won]
      gives := by
        intro former owner
        rw [owned, if_neg fun won => apart former won owner, List.append_nil]
      owned := by
        intro thread lost foreign
        rw [owned, kept thread foreign, if_neg lost, List.append_nil]
      waitingOn := fun thread lost => (waitingOn thread).trans (if_neg lost)
      base := fun thread => (base_of_bare bare thread).trans (base_handOn ..)
      enqueuedAt := fun thread => (enqueuedAt_of_bare bare thread).trans (enqueuedAt_handOn ..)
      policy := (policy_of_bare bare).trans (policy_handOn ..)
      stamp := (stamp_of_bare bare).trans (stamp_handOn ..) }

/-! ## What waiters weigh -/

theorem Sound.weighs_of_effective (sound : tables.Sound) {weight : Int}
    (h : tables.effective thread = .ok (weight, after)) : tables.ledger.Weighs thread weight := by
  obtain ⟨weight', after', ok, -, weighs⟩ :=
    effective_ok sound.linked sound.acyclic sound.coherent thread
  rw [h] at ok
  cases ok
  exact weighs

/-- A waiter that is not chosen weighs what it did. -/
theorem Sound.weighs_waiter (sound : tables.Sound) (sound' : after.Sound)
    (live : tables.queues.get? id = some queue)
    (among : ∀ other, winner = some other → other ∈ queue.waiting)
    (bare : after.ledger.bare = (tables.ledger.handOn id winner).bare)
    (waits : thread ∈ queue.waiting) (lost : winner ≠ some thread) {weight : Int}
    (weighs : tables.ledger.Weighs thread weight) : after.ledger.Weighs thread weight := by
  have live' : tables.ledger.queue? id = some queue := live
  have handed := handed_of_bare sound.linked live among bare
  rw [← waiters_of_queue? live'] at waits among
  have donors : ∀ donor, ReflTransGen after.ledger.Lends donor thread ↔
      ReflTransGen tables.ledger.Lends donor thread := by
    intro donor
    rw [lends_congr (queue?_of_bare bare)]
    exact donors_handOn live' sound.linked sound.acyclic among waits lost
  obtain ⟨_, kept, before, later⟩ :=
    sound.weighs_same sound' handed.policy donors fun donor _ => handed.base donor
  obtain ⟨_, ok⟩ := before.effective
  obtain ⟨_, ok'⟩ := later.effective
  obtain rfl := weighs.unique (sound.weighs_of_effective ok)
  exact sound'.weighs_of_effective ok'

/-! ## Who wins -/

theorem generator_of_invalidate (h : tables.invalidate thread = .ok after) :
    after.generator = tables.generator :=
  show after.bare.generator = tables.bare.generator from congrArg (·.generator)
    (bare_of_invalidate h)

theorem generator_of_disown (h : tables.disown thread id = .ok after) :
    after.generator = tables.generator := by
  have same : after.generator = (tables.amend thread (·.detach id)).generator :=
    generator_of_invalidate h
  exact same

theorem generator_of_vacate (h : tables.vacate id = .ok after) :
    after.generator = tables.generator := by
  obtain ⟨queue, -, h⟩ := ok_of_bind h
  dsimp only at h
  split at h
  · exact (generator_of_disown h).trans rfl
  · cases h
    rfl

theorem generator_of_acquire (h : tables.acquire id thread = .ok after) :
    after.generator = tables.generator := by
  obtain ⟨queue, -, h⟩ := ok_of_bind h
  split at h
  · cases h
  · obtain ⟨freed, displaces, h⟩ := ok_of_bind h
    have attached : after.generator = freed.generator := (generator_of_invalidate h).trans rfl
    rw [attached]
    unfold displace at displaces
    split at displaces
    · split at displaces
      · cases displaces
        rfl
      · exact (generator_of_disown displaces).trans rfl
    · cases displaces
      rfl

/-- Only the choice itself may draw. -/
theorem choice_of_handOver (h : tables.handOver id = .ok (winner, after)) :
    ∃ vacated queue chosen, tables.vacate id = .ok vacated ∧
      vacated.queues.get? id = some queue ∧ vacated.choose queue = .ok (winner, chosen) ∧
      after.generator = chosen.generator := by
  obtain ⟨vacated, vacates, h⟩ := ok_of_bind h
  obtain ⟨queue, found, h⟩ := ok_of_bind h
  obtain ⟨⟨won, chosen⟩, chooses, h⟩ := ok_of_bind h
  dsimp only at h
  split at h
  · cases h
    exact ⟨vacated, queue, _, vacates, queue_eq_ok_iff.mp found, chooses, rfl⟩
  · obtain ⟨taken, acquires, h⟩ := ok_of_bind h
    cases h
    exact ⟨vacated, queue, _, vacates, queue_eq_ok_iff.mp found, chooses,
      (generator_of_acquire acquires).trans rfl⟩

/-- The choice is made among the waiters as they stood before, by the policy of the tables. -/
theorem candidates_of_handOver (sound : tables.Sound)
    (live : tables.queues.get? id = some queue) {weight : ThreadId → Int}
    (weighs : ∀ thread, tables.ledger.Weighs thread (weight thread))
    (h : tables.handOver id = .ok (winner, after)) :
    ∃ vacated weighed chosen : Tables, vacated.candidates queue.donation queue.waiting =
        .ok (queue.waiting.map (tables.candidate weight queue.donation), weighed) ∧
      weighed.generator = tables.generator ∧ queue.policy = tables.policy ∧
      vacated.choose { queue with owner := none } = .ok (winner, chosen) ∧
      after.generator = chosen.generator := by
  obtain ⟨vacated, queue', chosen, vacates, live', chooses, generator⟩ := choice_of_handOver h
  obtain ⟨vacated', vacates', sound', bare⟩ := vacate_ok sound live
  cases vacates.symm.trans vacates'
  have nobody : ∀ other, (none : Option ThreadId) = some other → other ∈ queue.waiting := by simp
  have handed : Handed tables vacated id queue none := handed_of_bare sound.linked live nobody bare
  obtain rfl : { queue with owner := none } = queue' :=
    Option.some.inj (handed.place.symm.trans live')
  -- the waiters are the same candidates before the owner gives up the queue and after
  choose weight' weighs' using exists_weighs sound'.linked sound'.acyclic
  have same : queue.waiting.map (vacated.candidate weight' queue.donation) =
      queue.waiting.map (tables.candidate weight queue.donation) := by
    refine List.map_congr_left fun thread waits => ?_
    have stays := sound.weighs_waiter sound' live nobody bare waits (by simp) (weighs thread)
    rw [candidate, candidate, stake, stake, handed.base, handed.enqueuedAt,
      (weighs' thread).unique stays]
  obtain ⟨weighed, ok, -, -, drawn⟩ := candidates_ok sound' weighs' queue.donation queue.waiting
  rw [same] at ok
  exact ⟨vacated, weighed, chosen, ok, drawn.trans (generator_of_vacate vacates),
    sound.consistent.policy_eq live, chooses, generator⟩

/-- Under priority the winner is the highest of the waiters as they stood before. -/
theorem winner_of_handOver (sound : tables.Sound) (priority : tables.policy = .priority)
    (live : tables.queues.get? id = some queue) {weight : ThreadId → Int}
    (weighs : ∀ thread, tables.ledger.Weighs thread (weight thread))
    (h : tables.handOver id = .ok (winner, after)) :
    winner = (Candidate.highest
        (queue.waiting.map (tables.candidate weight queue.donation))).map (·.thread) ∧
      after.generator = tables.generator := by
  obtain ⟨vacated, weighed, chosen, ok, drawn, policy, chooses, generator⟩ :=
    candidates_of_handOver sound live weighs h
  unfold choose at chooses
  simp only [ok, bind, Except.bind, policy.trans priority, pure, Except.pure] at chooses
  cases chooses
  exact ⟨rfl, generator.trans drawn⟩

/-- The waiter goes before another one: it brings more into the choice, or as much and came
earlier. -/
def Precedes (tables : Tables) (stake : ThreadId → Int) (first second : ThreadId) : Prop :=
  stake second < stake first ∨
    stake second = stake first ∧ (tables.state first).enqueuedAt < (tables.state second).enqueuedAt

/-- The highest of the waiters precedes all others. -/
theorem precedes_of_highest (sound : tables.Sound) (live : tables.queues.get? id = some queue)
    {weight : ThreadId → Int}
    (h : (Candidate.highest (queue.waiting.map (tables.candidate weight queue.donation))).map
      (·.thread) = some thread) :
    ∀ other ∈ queue.waiting, other ≠ thread →
      tables.Precedes (tables.stake weight queue.donation) thread other := by
  obtain ⟨champion, highest, rfl⟩ := Option.map_eq_some_iff.mp h
  obtain ⟨thread, waits, rfl⟩ := List.mem_map.mp (Candidate.mem_of_highest highest)
  intro other waits' ne
  have unbeaten := Candidate.not_beats_of_highest highest _
    (List.mem_map_of_mem (f := tables.candidate weight queue.donation) waits')
  rw [Candidate.beats_iff] at unbeaten
  have stamps : (tables.state other).enqueuedAt ≠ (tables.state thread).enqueuedAt := by
    have increasing := sound.consistent.increasing id
    rw [waiters_of_queue? live] at increasing
    have distinct : (queue.waiting.map fun waiter => (tables.state waiter).enqueuedAt).Nodup :=
      List.pairwise_map.mpr (increasing.imp Nat.ne_of_lt)
    exact fun same => ne (List.inj_on_of_nodup_map distinct waits' waits same)
  simp only [candidate, Precedes] at unbeaten ⊢
  omega

/-- Under priority a live queue is handed to the waiter that precedes all others, and is left
without owner only if nobody waits. -/
theorem hands_over_by_priority (reachable : tables.Reachable)
    (priority : tables.policy = .priority) (live : tables.queues.get? id = some queue) :
    ∃ (weight : ThreadId → Int) (winner : Option ThreadId) (after : Tables),
      (∀ other, tables.ledger.Weighing other ↔ other = weight) ∧
      tables.handOver id = .ok (winner, after) ∧ (winner = none ↔ queue.waiting = []) ∧
      (∀ thread, winner = some thread → thread ∈ queue.waiting ∧
        ∀ other ∈ queue.waiting, other ≠ thread →
          tables.Precedes (tables.stake weight queue.donation) thread other) ∧
      Handed tables after id queue winner ∧ after.generator = tables.generator := by
  have sound := reachable.sound
  choose weight weighs using exists_weighs sound.linked sound.acyclic
  obtain ⟨winner, after, ok, -, among, nobody, bare⟩ := handOver_ok sound live
  obtain ⟨won, generator⟩ := winner_of_handOver sound priority live weighs ok
  refine ⟨weight, winner, after, weighing_iff weighs, ok, ⟨nobody, fun empty => ?_⟩,
    fun thread chosen => ⟨among thread chosen, ?_⟩, handed_of_bare sound.linked live among bare,
    generator⟩
  · rw [Option.eq_none_iff_forall_ne_some]
    rintro thread rfl
    exact absurd (among thread rfl) (empty ▸ List.not_mem_nil)
  · exact precedes_of_highest sound live (won.symm.trans chosen)

/-- The second of three waiters wins: what it is lent through its own queue makes it equal to the
third, which came later. -/
theorem hands_over_by_priority_boosted :
    Arrives
      [.newQueue true, .newQueue true, .acquire (.pack 0 0) ⟨1⟩, .setBase ⟨2⟩ 3,
        .enqueue (.pack 0 0) ⟨2⟩, .acquire (.pack 0 1) ⟨3⟩, .enqueue (.pack 0 0) ⟨3⟩,
        .setBase ⟨4⟩ 7, .enqueue (.pack 0 1) ⟨4⟩, .setBase ⟨5⟩ 7, .enqueue (.pack 0 0) ⟨5⟩]
      (fresh .priority 1)
      fun tables => ∃ (weight : ThreadId → Int) (after : Tables),
        tables.handOver (.pack 0 0) = .ok (some ⟨3⟩, after) ∧
        tables.Precedes (tables.stake weight true) ⟨3⟩ ⟨5⟩ ∧
        after.queues.get? (.pack 0 0) = some ⟨.priority, true, some ⟨3⟩, [⟨2⟩, ⟨5⟩]⟩ ∧
        (after.state ⟨3⟩).owned = [.pack 0 1, .pack 0 0] := by
  refine .imp (P := fun tables => tables.policy = .priority ∧
      tables.queues.get? (.pack 0 0) = some ⟨.priority, true, some ⟨1⟩, [⟨2⟩, ⟨3⟩, ⟨5⟩]⟩ ∧
      (tables.handOver (.pack 0 0)).toOption.map (·.1) = some (some ⟨3⟩) ∧
      (tables.state ⟨3⟩).owned = [.pack 0 1])
    (by decide +kernel) fun tables arrives ⟨priority, live, won, owned⟩ => ?_
  obtain ⟨weight, winner, after, -, ok, -, first, handed, -⟩ := hands_over_by_priority
    ((Reachable.fresh .priority 1).run arrives) priority live
  rw [ok] at won
  obtain rfl : winner = some ⟨3⟩ := Option.some.inj won
  have takes := (handed.takes ⟨3⟩ rfl).1
  rw [owned] at takes
  exact ⟨weight, after, ok, (first ⟨3⟩ rfl).2 ⟨5⟩ (by simp) (by simp), handed.place, takes⟩

end Tables

end Turnstile
