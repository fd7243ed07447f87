import Turnstile.Proofs.Ledger.Together
import Turnstile.Proofs.Random.Tickets
import Turnstile.Proofs.Tables.Owning

/-!
# New queues, waiting, and handing over

* **`newQueue_ok`**: a new queue takes a handle that reached nothing.
* **`enqueue_ok`**, **`enqueue_isOk`**: a thread can join the waiters of a live queue that it
  does not own if it waits on no other, stamps are left, and no ring is made.
* **`handOver_ok`**: a live queue can always be handed over. Weighing the waiters changes nothing
  but weights kept, a draw always ends, and the winner, which waited on the queue, has no owner
  in its way and makes no ring: it waits for nothing any more. Where somebody waits there is a
  winner, since every waiter holds a ticket.
-/

namespace Turnstile.Tables

open Relation Ledger

variable {tables after : Tables} {id : QueueId} {thread : ThreadId} {queue : Queue}

/-! ## New queues -/

/-- A new queue takes a handle that reached nothing. Only where there are 2^32 queues already may
it have no handle of its own, and then nothing is reached that was not. -/
theorem newQueue_moves (tables : Tables) (donation : Bool) :
    (tables.ledger.queue? (tables.newQueue donation).1 = none ∧
      (tables.newQueue donation).2.ledger =
        tables.ledger.place (tables.newQueue donation).1 (.fresh tables.policy donation)) ∨
    (¬ tables.queues.size < 4294967296 ∧
      (tables.newQueue donation).2.ledger = tables.ledger) := by
  by_cases room : tables.queues.size < 4294967296
  · obtain ⟨free, placed⟩ := QueueTable.get?_insert_of_size_lt room (.fresh tables.policy donation)
    exact .inl ⟨free, Ledger.ext rfl rfl (funext placed) rfl⟩
  · rcases QueueTable.get?_insert tables.queues (.fresh tables.policy donation) with
      ⟨free, placed⟩ | same
    · exact .inl ⟨free, Ledger.ext rfl rfl (funext placed) rfl⟩
    · exact .inr ⟨room, Ledger.ext rfl rfl (funext same) rfl⟩

theorem newQueue_ok (sound : tables.Sound) (donation : Bool) :
    (tables.newQueue donation).2.Sound := by
  rcases newQueue_moves tables donation with ⟨free, moved⟩ | ⟨-, moved⟩
  · refine .of_clear (moved.trans (clear_empty _).symm) (sound.consistent.place free donation)
      (sound.acyclic.mono fun a b => lends_of_place rfl) ?_
    rw [clear_empty]
    exact sound.coherent.place sound.linked free rfl rfl
  · exact sound.of_bare (by rw [moved]) (by rw [moved]; exact sound.coherent)

/-! ## Waiting -/

theorem ledger_join (tables : Tables) (id : QueueId) (thread : ThreadId) :
    (tables.join id thread).ledger = tables.ledger.join id thread := by
  rw [Tables.join, ledger_alter, ledger_record]
  rfl

/-- When a thread can get as far as the walk. -/
structure CanWait (tables : Tables) (id : QueueId) (thread : ThreadId) (queue : Queue) :
    Prop where
  live : tables.queues.get? id = some queue
  foreign : queue.owner ≠ some thread
  stamps : tables.stamp ≠ greatestStamp
  idle : (tables.state thread).waitingOn = none

theorem enqueue_eq (can : tables.CanWait id thread queue) :
    tables.enqueue id thread = (tables.join id thread).invalidate thread := by
  rw [enqueue, queue_eq_ok_iff.mpr can.live]
  show (if _ then _ else if _ then _ else _) = _
  rw [if_neg can.foreign, if_neg can.stamps, can.idle]

theorem canWait_of_enqueue (h : tables.enqueue id thread = .ok after) :
    ∃ queue, tables.CanWait id thread queue := by
  cases live : tables.queues.get? id with
  | none => simp [enqueue, Tables.queue, live, bind, Except.bind] at h
  | some queue =>
    rw [enqueue, queue_eq_ok_iff.mpr live] at h
    replace h : (if queue.owner = some thread then _ else if tables.stamp = greatestStamp then _
      else _) = Except.ok after := h
    by_cases owns : queue.owner = some thread
    · rw [if_pos owns] at h
      cases h
    · by_cases last : tables.stamp = greatestStamp
      · rw [if_neg owns, if_pos last] at h
        cases h
      · rw [if_neg owns, if_neg last] at h
        cases idle : (tables.state thread).waitingOn with
        | some other =>
          rw [idle] at h
          cases h
        | none => exact ⟨queue, live, owns, last, idle⟩

theorem hop_join (sound : tables.Sound) (can : tables.CanWait id thread queue) :
    (tables.join id thread).ledger.Hop = (tables.ledger.join id thread).Lends := by
  rw [ledger_join]
  exact (sound.linked.join can.live can.foreign can.idle).hop_eq

theorem enqueue_ok (sound : tables.Sound) (h : tables.enqueue id thread = .ok after) :
    (∃ queue, tables.CanWait id thread queue) ∧ after.Sound ∧
      after.ledger.bare = (tables.ledger.join id thread).bare := by
  obtain ⟨queue, can⟩ := canWait_of_enqueue h
  rw [enqueue_eq can] at h
  have joined := sound.linked.join can.live can.foreign can.idle
  have back := no_return_of_invalidate h
  rw [hop_join sound can] at back
  have acyclic : (tables.ledger.join id thread).Acyclic :=
    sound.acyclic.of_new_edges (fun a b lends => (lends_of_join can.live lends).imp_right .inl)
      back
  have moved : after.ledger = (tables.ledger.join id thread).clear
      ((tables.ledger.join id thread).chain thread) := by
    rw [ledger_of_invalidate h, ledger_join]
  refine ⟨⟨queue, can⟩, .of_clear moved
    (sound.consistent.join can.live can.foreign can.idle) acyclic
    (sound.coherent.join sound.linked can.live can.foreign can.idle (self_mem_chain _ _)
      (closed_chain (fun a b => joined.hop_iff.mpr) thread)), ?_⟩
  rw [moved, bare_clear]

theorem enqueue_isOk (sound : tables.Sound) (can : tables.CanWait id thread queue)
    (acyclic : (tables.ledger.join id thread).Acyclic) :
    ∃ after, tables.enqueue id thread = .ok after := by
  rw [enqueue_eq can]
  refine invalidate_isOk (fun u => ?_) thread
  rw [hop_join sound can]
  exact acyclic u

/-! ## Handing over -/

/-- A thread weighs no less than the least legal weight. -/
theorem minimum_le_of_weighs (sound : tables.Sound) {weight : Int}
    (weighs : tables.ledger.Weighs thread weight) : tables.policy.minimum ≤ weight := by
  have legal := sound.consistent.toLegal
  obtain ⟨donors, donor, together⟩ :=
    sound.linked.weighs_together legal sound.acyclic weighs
  have own := together.base_le legal.base_legal ((donor thread).mpr .refl)
  exact (Policy.contains_iff.mp (legal.base_legal thread)).1.trans own

/-- What a waiter brings into the choice, where `weight` counts all that is lent: as much where the
queue donates, and the waiter's own weight otherwise. -/
def stake (tables : Tables) (weight : ThreadId → Int) (donation : Bool) (thread : ThreadId) : Int :=
  if donation then weight thread else (tables.state thread).base

/-- The waiter as the choice sees it. -/
def candidate (tables : Tables) (weight : ThreadId → Int) (donation : Bool) (thread : ThreadId) :
    Candidate :=
  ⟨thread, tables.stake weight donation thread, (tables.state thread).enqueuedAt⟩

theorem minimum_le_stake (sound : tables.Sound) {weight : ThreadId → Int}
    (weighs : ∀ thread, tables.ledger.Weighs thread (weight thread)) (donation : Bool)
    (thread : ThreadId) : tables.policy.minimum ≤ tables.stake weight donation thread := by
  cases donation with
  | true => exact minimum_le_of_weighs sound (weighs thread)
  | false => exact (Policy.contains_iff.mp (sound.consistent.base_legal thread)).1

/-- A waiter looks the same where nothing but weights kept is different. -/
theorem candidate_of_bare (bare : after.ledger.bare = tables.ledger.bare)
    (weight : ThreadId → Int) (donation : Bool) (thread : ThreadId) :
    after.candidate weight donation thread = tables.candidate weight donation thread := by
  have base : (after.state thread).base = (tables.state thread).base := base_of_bare bare thread
  have stamp : (after.state thread).enqueuedAt = (tables.state thread).enqueuedAt :=
    enqueuedAt_of_bare bare thread
  rw [candidate, candidate, stake, stake, base, stamp]

@[simp] theorem generator_enrol (tables : Tables) (thread : ThreadId) :
    (tables.enrol thread).generator = tables.generator := by
  unfold enrol
  split <;> rfl

/-- A waiter comes into the choice with nothing but a weight worked out. -/
theorem standing_ok (sound : tables.Sound) {weight : ThreadId → Int}
    (weighs : ∀ thread, tables.ledger.Weighs thread (weight thread)) (donation : Bool)
    (thread : ThreadId) :
    ∃ after, tables.standing donation thread = .ok (tables.stake weight donation thread, after) ∧
      after.Sound ∧ after.ledger.bare = tables.ledger.bare ∧
      after.generator = tables.generator := by
  cases donation with
  | true =>
    obtain ⟨found, after, ok, weighed, right⟩ :=
      effective_ok sound.linked sound.acyclic sound.coherent thread
    have bare : after.ledger.bare = tables.ledger.bare := by
      rw [ledger_bare_eq_of_bare weighed.bare, ledger_enrol]
    have generator : after.generator = (tables.enrol thread).generator :=
      congrArg (·.generator) weighed.bare
    rw [right.unique (weighs thread)] at ok
    exact ⟨after, ok, sound.of_bare bare weighed.coherent, bare,
      generator.trans (generator_enrol tables thread)⟩
  | false =>
    have same : (tables.enrol thread).ledger = tables.ledger := ledger_enrol tables thread
    refine ⟨tables.enrol thread, rfl, sound.of_bare ?_ ?_, ?_, generator_enrol tables thread⟩
    · rw [same]
    · rw [same]
      exact sound.coherent
    · rw [same]

/-- There is one candidate for each waiter, in order. -/
theorem candidates_ok (sound : tables.Sound) {weight : ThreadId → Int}
    (weighs : ∀ thread, tables.ledger.Weighs thread (weight thread)) (donation : Bool)
    (waiting : List ThreadId) :
    ∃ after, tables.candidates donation waiting =
        .ok (waiting.map (tables.candidate weight donation), after) ∧
      after.Sound ∧ after.ledger.bare = tables.ledger.bare ∧
      after.generator = tables.generator := by
  -- Each waiter is weighed in the tables that those before it have left, which differ in
  -- weights kept.
  induction waiting generalizing tables with
  | nil => exact ⟨tables, rfl, sound, rfl, rfl⟩
  | cons thread rest ih =>
    obtain ⟨next, ok, sound', bare, generator⟩ := standing_ok sound weighs donation thread
    obtain ⟨after, ok', sound'', bare', generator'⟩ :=
      ih sound' fun other => (weighs other).of_bare bare
    have stamp : (after.state thread).enqueuedAt = (tables.state thread).enqueuedAt :=
      enqueuedAt_of_bare (bare'.trans bare) thread
    refine ⟨after, ?_, sound'', bare'.trans bare, generator'.trans generator⟩
    simp only [Tables.candidates, ok, bind, Except.bind, ok', stamp, pure, Except.pure,
      funext (candidate_of_bare bare weight donation)]
    rfl

/-- A choice can always be made. It falls on a waiter, and on nobody only if nobody waits. -/
theorem choose_ok (sound : tables.Sound) {queue : Queue} (policy : queue.policy = tables.policy) :
    ∃ winner after, tables.choose queue = .ok (winner, after) ∧
      (∀ thread, winner = some thread → thread ∈ queue.waiting) ∧
      (winner = none → queue.waiting = []) ∧ after.Sound ∧
      after.ledger.bare = tables.ledger.bare := by
  choose weight _ _ _ weighs using effective_ok sound.linked sound.acyclic sound.coherent
  obtain ⟨weighed, ok, sound', bare, -⟩ := candidates_ok sound weighs queue.donation queue.waiting
  generalize found : queue.waiting.map (tables.candidate weight queue.donation) = candidates at ok
  have waits : ∀ candidate ∈ candidates, candidate.thread ∈ queue.waiting := by
    rw [← found]
    exact List.forall_mem_map.mpr fun thread waits => waits
  unfold choose
  rw [ok]
  cases hp : queue.policy with
  | priority =>
    refine ⟨_, weighed, rfl, fun thread h => ?_, fun h => ?_, sound', bare⟩
    · obtain ⟨candidate, highest, rfl⟩ := Option.map_eq_some_iff.mp h
      exact waits candidate (Candidate.mem_of_highest highest)
    · cases candidates with
      | nil => exact List.map_eq_nil_iff.mp found
      | cons first rest => cases h
  | lottery =>
    obtain ⟨index, generator, drawn⟩ :=
      Lottery.draw_ok (candidates.map (·.weight)) weighed.generator
    refine ⟨index.bind fun index => (candidates[index]?).map (·.thread),
      { weighed with generator }, ?_, fun thread h => ?_, fun h => ?_,
      ⟨sound'.1, sound'.2, sound'.3⟩, bare⟩
    · simp only [bind, Except.bind, drawn]
      rfl
    · obtain ⟨place, -, held⟩ := Option.bind_eq_some_iff.mp h
      obtain ⟨candidate, found, rfl⟩ := Option.map_eq_some_iff.mp held
      exact waits candidate (List.mem_of_getElem? found)
    · cases candidates with
      | nil => exact List.map_eq_nil_iff.mp found
      | cons first rest =>
        -- the first waiter holds a ticket, so somebody holds the ticket drawn
        have ticketed : 0 < first.weight := by
          obtain ⟨thread, -, rfl⟩ := List.mem_map.mp (found ▸ List.mem_cons_self)
          have least := minimum_le_stake sound weighs queue.donation thread
          rw [← policy, hp] at least
          exact Int.lt_of_lt_of_le (by decide) least
        obtain ⟨place, after, drawn', bound⟩ :=
          Lottery.draw_some ticketed (rest.map (·.weight)) weighed.generator
        cases drawn.symm.trans drawn'
        rw [← List.map_cons, List.length_map] at bound
        simp [List.getElem?_eq_getElem bound] at h

theorem ledger_withdraw (tables : Tables) (id : QueueId) (thread : ThreadId) :
    (tables.withdraw id thread).ledger = tables.ledger.withdraw id thread := by
  rw [Tables.withdraw, ledger_record, ledger_alter]
  rfl

/-- A waiter of a queue without owner can always take it. -/
theorem promote_ok (sound : tables.Sound) (live : tables.queues.get? id = some queue)
    (unowned : queue.owner = none) (waits : thread ∈ queue.waiting) :
    ∃ after, (tables.withdraw id thread).acquire id thread = .ok after ∧ after.Sound ∧
      after.ledger.bare = ((tables.ledger.withdraw id thread).install id thread).bare := by
  have waits' : thread ∈ tables.ledger.waiters id := by rwa [waiters_of_queue? live]
  have unowned' : tables.ledger.owner? id = none := by rw [owner?_of_queue? live, unowned]
  have withdrawn := ledger_withdraw tables id thread
  have sound' : (tables.withdraw id thread).Sound := by
    refine .of_clear (withdrawn.trans (clear_empty _).symm) (sound.consistent.withdraw waits')
      (sound.acyclic.mono fun a b => lends_of_withdraw) ?_
    rw [clear_empty]
    exact sound.coherent.withdraw sound.linked waits' unowned'
  have live' : (tables.withdraw id thread).queues.get? id =
      some { queue with waiting := queue.waiting.erase thread } := by
    show (tables.withdraw id thread).ledger.queue? id = _
    rw [withdrawn]
    show (if id = id then (tables.queues.get? id).map _ else _) = _
    rw [if_pos rfl, live]
    rfl
  have absent : thread ∉ queue.waiting.erase thread := by
    have distinct := sound.linked.waiters_nodup id
    rw [waiters_of_queue? live] at distinct
    exact distinct.not_mem_erase
  have installed := sound'.linked.install live' absent
  have idle : (((tables.withdraw id thread).ledger.install id thread).record thread).waitingOn =
      none := by
    rw [waitingOn_install, withdrawn, record_withdraw, if_pos rfl]
  have acyclic : ((tables.withdraw id thread).ledger.install id thread).Acyclic := by
    refine sound'.acyclic.of_new_edges
      (fun a b lends => (lends_of_install live' lends).imp_right .inr) fun ring => ?_
    -- whoever waits for nothing lends to nobody
    obtain ⟨other, lends, -⟩ := TransGen.head'_iff.mp ring
    exact installed.waitingOn_ne_none lends idle
  obtain ⟨after, ok⟩ := acquire_isOk sound' live' absent acyclic
  obtain ⟨-, -, -, sound'', bare⟩ := acquire_ok sound' ok
  exact ⟨after, ok, sound'', by rw [bare, withdrawn]⟩

theorem handOver_ok (sound : tables.Sound) (live : tables.queues.get? id = some queue) :
    ∃ winner after, tables.handOver id = .ok (winner, after) ∧ after.Sound ∧
      (∀ thread, winner = some thread → thread ∈ queue.waiting) ∧
      (winner = none → queue.waiting = []) ∧
      after.ledger.bare = (tables.ledger.handOn id winner).bare := by
  obtain ⟨vacated, vacates, sound', bare⟩ := vacate_ok sound live
  have live' : vacated.queues.get? id = some { queue with owner := none } := by
    show vacated.ledger.bare.queue? id = _
    rw [bare]
    show (if id = id then (tables.queues.get? id).map _ else _) = _
    rw [if_pos rfl, live]
    rfl
  obtain ⟨winner, chosen, chooses, waits, nobody, sound'', bare'⟩ :=
    choose_ok sound' (sound'.consistent.policy_eq live')
  have live'' : chosen.queues.get? id = some { queue with owner := none } := by
    show chosen.ledger.bare.queue? id = _
    rw [bare']
    exact live'
  unfold handOver
  rw [vacates]
  simp only [bind, Except.bind, queue_eq_ok_iff.mpr live', chooses]
  cases winner with
  | none => exact ⟨none, chosen, rfl, sound'', waits, nobody, bare'.trans bare⟩
  | some winner =>
    obtain ⟨after, ok, sound, moved⟩ := promote_ok sound'' live'' rfl (waits winner rfl)
    refine ⟨some winner, after, by simp only [ok]; rfl, sound, waits, nobody, ?_⟩
    rw [moved, Ledger.handOn, bare_install, bare_install, bare_withdraw, bare_withdraw,
      bare'.trans bare]

theorem live_of_handOver {winner : Option ThreadId}
    (h : tables.handOver id = .ok (winner, after)) :
    ∃ queue, tables.queues.get? id = some queue := by
  cases live : tables.queues.get? id with
  | none => simp [handOver, vacate, Tables.queue, live, bind, Except.bind] at h
  | some queue => exact ⟨queue, rfl⟩

end Turnstile.Tables
