import Turnstile.Proofs.Tables.Sound

/-!
# Weights given and threads that leave

* **`setBase_ok`**: a thread can always be given a weight. It becomes legal, and all weights that
  it had a part in are forgotten.
* **`forget_ok`**: a thread can always leave. Its record goes first, then it leaves the waiters,
  then the walk goes from the thread that it lent to, and last its queues lose their owner. The
  walk goes where it would have gone before, except that it ends at the thread that leaves.
-/

namespace Turnstile

open Relation

namespace Ledger

variable {ledger : Ledger} {thread a b : ThreadId}

/-- The thread has a new record and waits nowhere, but queues may still name it as owner. -/
def strike (ledger : Ledger) (thread : ThreadId) : Ledger :=
  { ledger with
    queue? := fun id => (ledger.queue? id).map fun queue =>
      { queue with waiting := queue.waiting.filter (· ≠ thread) }
    record := fun other =>
      if thread = other then .fresh ledger.policy.defaultWeight else ledger.record other }

/-- A walk goes on as before, except from the thread that was struck out. -/
theorem hop_strike : (ledger.strike thread).Hop a b ↔ a ≠ thread ∧ ledger.Hop a b := by
  have owners : ∀ id, (ledger.strike thread).owner? id = ledger.owner? id := by
    intro id
    cases h : ledger.queue? id <;> simp [owner?, strike, h]
  have donations : ∀ id, (ledger.strike thread).donates id = ledger.donates id := by
    intro id
    cases h : ledger.queue? id <;> simp [donates, strike, h]
  by_cases ha : thread = a
  · subst ha
    simp [Hop, donee?, strike, ThreadState.fresh]
  · have record : (ledger.strike thread).record a = ledger.record a := if_neg ha
    simp [Hop, donee?, record, owners, donations, Ne.symm ha]

/-- A thread that has the record of a new one owns nothing and waits for nothing, so there is
nothing to dismiss. -/
theorem Linked.dismiss_of_fresh (linked : ledger.Linked)
    (new : ledger.record thread = .fresh ledger.policy.defaultWeight) :
    ledger.dismiss thread = ledger := by
  refine Ledger.ext rfl rfl (funext fun id => ?_) (funext fun other => ?_)
  · show (ledger.queue? id).map _ = ledger.queue? id
    cases live : ledger.queue? id with
    | none => rfl
    | some queue =>
      have foreign : queue.owner ≠ some thread := fun owns => by
        rw [← owner?_of_queue? live, ← linked.owned_iff, new] at owns
        cases owns
      have absent : thread ∉ queue.waiting := fun waits => by
        rw [← waiters_of_queue? live, ← linked.waitingOn_iff, new] at waits
        cases waits
      rw [Option.map_some, if_neg foreign, filter_of_notMem absent]
  · rw [record_dismiss]
    split
    · rename_i same
      rw [← same, new]
    · rfl

/-- There is nothing to clear in a new record. -/
theorem clear_dismiss (ledger : Ledger) (thread : ThreadId) (threads : Set ThreadId) :
    (ledger.dismiss thread).clear ({thread} ∪ threads) = (ledger.dismiss thread).clear threads := by
  rw [Set.union_comm, ← clear_clear]
  refine Ledger.ext rfl rfl rfl (funext fun other => ?_)
  by_cases hm : other ∈ ({thread} : Set ThreadId)
  · rw [record_clear_of_mem hm]
    obtain rfl : other = thread := hm
    by_cases ho : other ∈ threads
    · rw [record_clear_of_mem ho]
      rfl
    · rw [record_clear_of_notMem ho, record_dismiss, if_pos rfl]
      rfl
  · rw [record_clear_of_notMem hm]

end Ledger

namespace Tables

open Ledger

variable {tables after : Tables} {thread : ThreadId}

/-! ## Weights -/

theorem enrol_sound (sound : tables.Sound) (thread : ThreadId) :
    (tables.enrol thread).Sound :=
  sound.of_bare (by rw [ledger_enrol]) (by rw [ledger_enrol]; exact sound.coherent)

theorem setBase_ok (sound : tables.Sound) (thread : ThreadId) (weight : Int) :
    ∃ after, tables.setBase thread weight = .ok after ∧ after.Sound ∧
      after.ledger.queue? = tables.ledger.queue? := by
  have legal := tables.policy.contains_clamp weight
  unfold setBase
  generalize tables.policy.clamp weight = weight at legal ⊢
  by_cases same : (tables.state thread).base = weight
  · exact ⟨tables.enrol thread, if_pos same, enrol_sound sound thread, by rw [ledger_enrol]⟩
  · have hops : (tables.record thread fun state => { state with base := weight }).ledger.Hop =
        tables.ledger.Hop := by
      rw [ledger_record]
      refine hop_congr rfl fun other => ?_
      by_cases h : thread = other <;> simp [Ledger.write, h]
    obtain ⟨after, ok⟩ : ∃ after, (tables.record thread fun state =>
        { state with base := weight }).invalidate thread = .ok after := by
      refine invalidate_isOk (fun u => ?_) thread
      rw [hops]
      exact sound.no_return u
    have moved := ledger_of_invalidate ok
    rw [chain_of_hop_eq hops, ledger_record] at moved
    refine ⟨after, (if_neg same).trans ok, .of_clear moved (sound.consistent.weigh legal)
      (sound.acyclic.congr rfl) (sound.coherent.weigh sound.linked (self_mem_chain _ _)
        (closed_chain (fun a b => sound.linked.hop_iff.mpr) thread)), ?_⟩
    rw [moved]
    rfl

/-! ## Leaving -/

/-- In a linked ledger a thread that has left the queue it waits on waits nowhere. -/
theorem ledger_strike (linked : tables.ledger.Linked) (thread : ThreadId) :
    (tables.strike thread (tables.state thread).waitingOn).ledger =
      tables.ledger.strike thread := by
  have record : ∀ other, ({ tables with
      threads := tables.threads.erase thread } : Tables).state other =
      if thread = other then .fresh tables.policy.defaultWeight else tables.state other := by
    intro other
    by_cases h : thread = other <;> simp [Tables.state, Directory.get?_erase, h]
  -- a queue that the thread does not wait on keeps all its waiters
  have kept : ∀ id, (tables.state thread).waitingOn ≠ some id →
      (tables.queues.get? id).map (fun queue =>
        { queue with waiting := queue.waiting.filter (· ≠ thread) }) = tables.queues.get? id := by
    intro id elsewhere
    cases live : tables.queues.get? id with
    | none => rfl
    | some queue =>
      have absent : thread ∉ queue.waiting := fun waits => elsewhere <|
        (linked.waitingOn_iff thread id).mpr (by
          rwa [show tables.ledger.waiters id = queue.waiting from waiters_of_queue? live])
      simp only [Option.map_some, filter_of_notMem absent]
  unfold Tables.strike
  cases waitingOn : (tables.state thread).waitingOn with
  | none =>
    refine Ledger.ext rfl rfl (funext fun id => (kept id ?_).symm) (funext record)
    rw [waitingOn]
    rintro ⟨⟩
  | some place =>
    refine Ledger.ext rfl rfl (funext fun id => ?_) (funext record)
    show (tables.queues.modify place _).get? id = _
    rw [QueueTable.get?_modify]
    split
    · rename_i h
      rw [h]
      rfl
    · rename_i h
      refine (kept id ?_).symm
      rw [waitingOn]
      simpa using Ne.symm h

/-- Leave the queue without owner if that is `thread`. -/
def free (thread : ThreadId) (queue : Queue) : Queue :=
  if queue.owner = some thread then { queue with owner := none } else queue

theorem free_free (thread : ThreadId) (queue : Queue) :
    free thread (free thread queue) = free thread queue := by
  unfold free
  by_cases h : queue.owner = some thread <;> simp [h]

theorem ledger_release (tables : Tables) (thread : ThreadId) (ids : List QueueId) :
    (tables.release thread ids).ledger = { tables.ledger with
      queue? := fun id =>
        if id ∈ ids then (tables.ledger.queue? id).map (free thread)
        else tables.ledger.queue? id } := by
  induction ids generalizing tables with
  | nil => rfl
  | cons first rest ih =>
    have start : tables.release thread (first :: rest) =
        (tables.alter first (free thread)).release thread rest := rfl
    rw [start, ih, ledger_alter]
    refine Ledger.ext rfl rfl (funext fun id => ?_) rfl
    by_cases hf : id = first
    · subst hf
      by_cases hr : id ∈ rest <;>
        simp [Ledger.alter, hr, Function.comp_def, free_free]
    · simp [Ledger.alter, hf]

/-- Taking the ownerships away completes the dismissal. -/
theorem ledger_dismiss (linked : tables.ledger.Linked) {inside : Set ThreadId}
    (h : after.ledger = (tables.ledger.strike thread).clear inside) :
    (after.release thread (tables.state thread).owned).ledger =
      (tables.ledger.dismiss thread).clear inside := by
  rw [ledger_release, h]
  refine Ledger.ext rfl rfl (funext fun id => ?_) rfl
  show (if id ∈ (tables.state thread).owned then
    ((tables.queues.get? id).map _).map _ else (tables.queues.get? id).map _) = _
  have owned : id ∈ (tables.state thread).owned ↔ tables.ledger.owner? id = some thread :=
    linked.owned_iff thread id
  show _ = (tables.queues.get? id).map _
  cases live : tables.queues.get? id with
  | none => simp
  | some queue =>
    rw [show tables.ledger.owner? id = queue.owner from owner?_of_queue? live] at owned
    by_cases h : queue.owner = some thread <;> simp [owned, h, free]

/-- The walk from the thread that was lent to clears a closed set. -/
theorem invalidateDonee_ok (sound : tables.Sound) (thread : ThreadId) :
    ∃ walked inside,
      (tables.strike thread (tables.state thread).waitingOn).invalidateDonee
        (tables.donee? (tables.state thread)) = .ok walked ∧
      walked.ledger = (tables.ledger.strike thread).clear inside ∧
      (∀ u, tables.ledger.Lends thread u → u ∈ inside) ∧
      (tables.ledger.dismiss thread).Closed inside := by
  have struck := ledger_strike sound.linked thread
  -- edges between the threads that stay are steps of the walk
  have edges : ∀ a b, (tables.ledger.dismiss thread).Lends a b →
      (tables.ledger.strike thread).Hop a b := by
    intro a b lends
    obtain ⟨lent, ha, -⟩ := lends_dismiss_iff.mp lends
    exact hop_strike.mpr ⟨ha, sound.linked.hop_iff.mpr lent⟩
  rw [donee?_state]
  cases donee : tables.ledger.donee? thread with
  | none =>
    refine ⟨_, ∅, rfl, struck.trans (clear_empty _).symm, fun u lends => ?_, closed_empty _⟩
    have hop : tables.ledger.donee? thread = some u := sound.linked.hop_iff.mpr lends
    cases donee.symm.trans hop
  | some owner =>
    obtain ⟨walked, ok⟩ : ∃ walked,
        (tables.strike thread (tables.state thread).waitingOn).invalidate owner =
          .ok walked := by
      refine invalidate_isOk (fun u ring => sound.no_return u ?_) owner
      rw [struck] at ring
      exact TransGen.mono (fun a b hop => (hop_strike.mp hop).2) u u ring
    refine ⟨walked, (tables.ledger.strike thread).chain owner, ok, ?_, fun u lends => ?_,
      closed_chain edges owner⟩
    · rw [ledger_of_invalidate ok, struck]
    · have hop : tables.ledger.donee? thread = some u := sound.linked.hop_iff.mpr lends
      cases donee.symm.trans hop
      exact self_mem_chain _ _

theorem forget_ok (sound : tables.Sound) (thread : ThreadId) :
    ∃ after, tables.forget thread = .ok after ∧ after.Sound ∧
      after.ledger.bare = (tables.ledger.dismiss thread).bare := by
  cases known : tables.threads.get? thread with
  | none =>
    refine ⟨tables, by rw [forget, known], sound, ?_⟩
    rw [sound.linked.dismiss_of_fresh (state_of_get?_none known)]
  | some state =>
    obtain rfl := state_of_get? known
    obtain ⟨walked, inside, ok, ledger, donee, closed⟩ := invalidateDonee_ok sound thread
    have acyclic : (tables.ledger.dismiss thread).Acyclic :=
      sound.acyclic.mono fun a b lends => (lends_dismiss_iff.mp lends).1
    have moved : (walked.release thread (tables.state thread).owned).ledger =
        (tables.ledger.dismiss thread).clear ({thread} ∪ inside) := by
      rw [clear_dismiss, ledger_dismiss sound.linked ledger]
    refine ⟨walked.release thread (tables.state thread).owned, ?_, .of_clear moved
      (sound.consistent.dismiss thread) acyclic (sound.coherent.dismiss sound.linked (.inl rfl)
        (fun u lends => .inr (donee u lends)) (fun a b lends hm => ?_)), ?_⟩
    · rw [forget, known]
      simp only [ok, bind, Except.bind]
      rfl
    · rcases hm with rfl | hm
      · exact absurd rfl (lends_dismiss_iff.mp lends).2.1
      · exact .inr (closed a b lends hm)
    · rw [moved, bare_clear]

end Tables

end Turnstile
