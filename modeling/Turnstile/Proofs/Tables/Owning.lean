import Turnstile.Proofs.Tables.Sound

/-!
# Taking and giving up queues

`acquire`, `vacate` and `closeQueue` change who owns a queue. Each takes the queue from its former
owner's record and walks from there (`disown`), and `acquire` walks from the new owner as well.

* **The former owner's walk** starts while the two sides disagree: the queue says already what
  it will say in the end. A walk reads queues and what threads wait on, so it goes where a walk
  at the end would go.
* **`vacate_ok`**, **`closeQueue_ok`**: on a live queue, and for closing without waiters, they
  always succeed.
* **`acquire_ok`**, **`acquire_isOk`**: `acquire` succeeds if the queue is live, the thread is
  not among its waiters and no ring is made, and only then.
-/

namespace Turnstile

open Relation

namespace Ledger

variable {ledger : Ledger} {id : QueueId} {thread : ThreadId}

/-- The queue names its new owner, and of other records none lists it any more. -/
def seize (ledger : Ledger) (id : QueueId) (thread : ThreadId) : Ledger :=
  { ledger.alter id fun queue => { queue with owner := some thread } with
    record := fun other =>
      if thread = other then ledger.record other else (ledger.record other).detach id }

theorem seize_attach (ledger : Ledger) (id : QueueId) (thread : ThreadId) :
    (ledger.seize id thread).write thread (·.attach id) = ledger.install id thread := by
  refine Ledger.ext rfl rfl rfl (funext fun other => ?_)
  by_cases h : thread = other <;> simp [seize, write, install, h]

/-- Where nobody else owns the queue, no other record lists it. -/
theorem Linked.seize_eq_alter (linked : ledger.Linked)
    (only : ∀ u, ledger.owner? id = some u → u = thread) :
    ledger.seize id thread = ledger.alter id fun queue => { queue with owner := some thread } := by
  refine Ledger.ext rfl rfl rfl (funext fun other => ?_)
  show (if thread = other then ledger.record other else (ledger.record other).detach id) =
    ledger.record other
  by_cases h : thread = other
  · rw [if_pos h]
  · rw [if_neg h]
    refine ThreadState.detach_of_notMem fun owns => h ?_
    exact (only other ((linked.owned_iff other id).mp owns)).symm

/-- Where another thread owns the queue, only that thread's record lists it. -/
theorem Linked.seize_eq_write (linked : ledger.Linked) {former : ThreadId}
    (owns : ledger.owner? id = some former) (hne : former ≠ thread) :
    ledger.seize id thread =
      (ledger.alter id fun queue => { queue with owner := some thread }).write former
        (·.detach id) := by
  refine Ledger.ext rfl rfl rfl (funext fun other => ?_)
  show (if thread = other then ledger.record other else (ledger.record other).detach id) =
    if former = other then (ledger.record other).detach id else ledger.record other
  by_cases hf : former = other
  · rw [if_pos hf, if_neg fun ht => hne (hf.trans ht.symm)]
  · have foreign : id ∉ (ledger.record other).owned := by
      rw [linked.owned_iff, owns]
      simpa using hf
    rw [if_neg hf, ThreadState.detach_of_notMem foreign, ite_self]

theorem hop_install (ledger : Ledger) (id : QueueId) (thread : ThreadId) :
    (ledger.install id thread).Hop =
      (ledger.alter id fun queue => { queue with owner := some thread }).Hop :=
  hop_congr rfl fun other => waitingOn_install ledger id thread other

theorem hop_detach (ledger : Ledger) (thread : ThreadId) (id : QueueId) :
    (ledger.write thread (·.detach id)).Hop = ledger.Hop := by
  refine hop_congr rfl fun other => ?_
  by_cases h : thread = other <;> simp [write, h, ThreadState.detach]

end Ledger

namespace Tables

open Ledger

variable {tables after : Tables} {id : QueueId} {thread owner : ThreadId} {queue : Queue}

/-! ## The former owner -/

theorem disown_ok (h : tables.disown owner id = .ok after) :
    after.ledger = (tables.ledger.write owner (·.detach id)).clear (tables.ledger.chain owner) := by
  rw [ledger_of_invalidate h, ledger_detach, chain_of_hop_eq (hop_detach _ _ _)]

theorem disown_isOk (acyclic : ∀ thread, ¬ TransGen tables.ledger.Hop thread thread)
    (owner : ThreadId) (id : QueueId) : ∃ after, tables.disown owner id = .ok after := by
  refine invalidate_isOk (fun thread => ?_) owner
  rw [ledger_detach, hop_detach]
  exact acyclic thread

/-! ## Giving up a queue -/

theorem vacate_eq (live : tables.queues.get? id = some queue) :
    tables.vacate id =
      match queue.owner with
      | some previous =>
        (tables.alter id fun queue => { queue with owner := none }).disown previous id
      | none => .ok (tables.alter id fun queue => { queue with owner := none }) := by
  rw [Tables.vacate, queue_eq_ok_iff.mpr live]
  rfl

/-- Giving a queue up is the move of that name, with a closed set cleared around the former
owner. -/
theorem vacate_moves (sound : tables.Sound) (live : tables.queues.get? id = some queue) :
    ∃ after inside, tables.vacate id = .ok after ∧
      after.ledger = (tables.ledger.vacate id).clear inside ∧
      (∀ u, tables.ledger.owner? id = some u → u ∈ inside) ∧
      (tables.ledger.vacate id).Closed inside := by
  have owns : tables.ledger.owner? id = queue.owner := owner?_of_queue? live
  have linked := sound.linked.vacate id
  rw [vacate_eq live]
  cases ho : queue.owner with
  | none =>
    rw [ho] at owns
    refine ⟨_, ∅, rfl, ?_, ?_, closed_empty _⟩
    · rw [clear_empty, Ledger.vacate, sound.linked.strip_eq_self owns]
      exact ledger_alter tables id _
    · rw [owns]
      rintro u ⟨⟩
  | some previous =>
    rw [ho] at owns
    have start : (tables.alter id fun queue => { queue with owner := none }).ledger.Hop =
        (tables.ledger.vacate id).Hop := by
      rw [ledger_alter]
      exact hop_congr rfl fun _ => rfl
    obtain ⟨after, ok⟩ : ∃ after, (tables.alter id fun queue =>
        { queue with owner := none }).disown previous id = .ok after := by
      refine disown_isOk (fun thread => ?_) previous id
      rw [start, linked.hop_eq]
      exact sound.acyclic.mono (fun a b => lends_of_vacate) thread
    refine ⟨after, (tables.ledger.vacate id).chain previous, ok, ?_, ?_,
      closed_chain (fun a b => linked.hop_iff.mpr) previous⟩
    · rw [disown_ok ok, chain_of_hop_eq start, ledger_alter, Ledger.vacate,
        sound.linked.strip_eq_write owns]
      rfl
    · rw [owns]
      rintro u ⟨⟩
      exact self_mem_chain _ _

theorem vacate_ok (sound : tables.Sound) (live : tables.queues.get? id = some queue) :
    ∃ after, tables.vacate id = .ok after ∧ after.Sound ∧
      after.ledger.bare = (tables.ledger.vacate id).bare := by
  obtain ⟨after, inside, ok, ledger, former, closed⟩ := vacate_moves sound live
  refine ⟨after, ok, .of_clear ledger (sound.consistent.vacate id)
    (sound.acyclic.mono fun a b => lends_of_vacate)
    (sound.coherent.vacate sound.linked former closed), ?_⟩
  rw [ledger, bare_clear]

/-! ## Closing a queue -/

theorem ledger_drop (live : tables.queues.get? id = some queue) :
    (tables.drop id).ledger = { tables.ledger with
      queue? := fun other => if other = id then none else tables.ledger.queue? other } := by
  obtain ⟨rest, removed⟩ : ∃ rest, tables.queues.remove id = some (queue, rest) := by
    simp [QueueTable.remove, live]
  unfold drop
  simp only [removed]
  exact Ledger.ext rfl rfl (funext fun other => QueueTable.get?_remove removed other) rfl

theorem closeQueue_eq (live : tables.queues.get? id = some queue) :
    tables.closeQueue id =
      if queue.isEmpty then
        match queue.owner with
        | some owner => (tables.disown owner id).map (·.drop id)
        | none => .ok (tables.drop id)
      else .error (.closesWaitedOn id queue.size) := by
  rw [closeQueue, queue_eq_ok_iff.mpr live]
  show (if queue.isEmpty then _ else _) = _
  split
  · cases queue.owner with
    | none => rfl
    | some owner => cases tables.disown owner id <;> rfl
  · rfl

/-- Closing a queue is the move of that name, with a closed set cleared around the owner. -/
theorem closeQueue_moves (sound : tables.Sound) (live : tables.queues.get? id = some queue)
    (nobody : queue.waiting = []) :
    ∃ after inside, tables.closeQueue id = .ok after ∧
      after.ledger = (tables.ledger.close id).clear inside ∧
      (∀ u, tables.ledger.owner? id = some u → u ∈ inside) ∧
      (tables.ledger.close id).Closed inside := by
  have owns : tables.ledger.owner? id = queue.owner := owner?_of_queue? live
  rw [closeQueue_eq live, if_pos (by simp [Queue.isEmpty, nobody])]
  cases ho : queue.owner with
  | none =>
    rw [ho] at owns
    refine ⟨_, ∅, rfl, ?_, ?_, closed_empty _⟩
    · rw [clear_empty, Ledger.close, sound.linked.strip_eq_self owns]
      exact ledger_drop live
    · rw [owns]
      rintro u ⟨⟩
  | some owner =>
    rw [ho] at owns
    obtain ⟨disowned, ok⟩ := disown_isOk sound.no_return owner id
    have freed := disown_ok ok
    have live' : disowned.queues.get? id = some queue :=
      (congrFun (congrArg Ledger.queue? freed) id).trans live
    -- the walk went through the ledger as it was before the queue was closed
    refine ⟨disowned.drop id, tables.ledger.chain owner, by simp [ok, Except.map], ?_, ?_,
      closed_chain (fun a b h => sound.linked.hop_iff.mpr (lends_of_close h)) owner⟩
    · rw [ledger_drop live', freed, Ledger.close, sound.linked.strip_eq_write owns]
      rfl
    · rw [owns]
      rintro u ⟨⟩
      exact self_mem_chain _ _

theorem closeQueue_ok (sound : tables.Sound) (live : tables.queues.get? id = some queue)
    (nobody : queue.waiting = []) :
    ∃ after, tables.closeQueue id = .ok after ∧ after.Sound ∧
      after.ledger.bare = (tables.ledger.close id).bare := by
  have empty : tables.ledger.waiters id = [] := (waiters_of_queue? live).trans nobody
  obtain ⟨after, inside, ok, ledger, former, closed⟩ := closeQueue_moves sound live nobody
  refine ⟨after, ok, .of_clear ledger (sound.consistent.close empty)
    (sound.acyclic.mono fun a b => lends_of_close)
    (sound.coherent.close sound.linked empty former closed), ?_⟩
  rw [ledger, bare_clear]

theorem live_of_closeQueue (h : tables.closeQueue id = .ok after) :
    ∃ queue, tables.queues.get? id = some queue ∧ queue.waiting = [] := by
  cases live : tables.queues.get? id with
  | none => simp [closeQueue, Tables.queue, live, bind, Except.bind] at h
  | some queue =>
    rw [closeQueue_eq live] at h
    split at h
    · rename_i empty
      exact ⟨queue, rfl, by simpa [Queue.isEmpty] using empty⟩
    · cases h

/-! ## Taking a queue -/

theorem acquire_eq (live : tables.queues.get? id = some queue) :
    tables.acquire id thread =
      if thread ∈ queue.waiting then .error (.acquiresWaitedOn thread id)
      else
        ((tables.alter id fun queue => { queue with owner := some thread }).displace id thread
          queue.owner).bind fun tables =>
            (tables.record thread (·.attach id)).invalidate thread := by
  rw [acquire, queue_eq_ok_iff.mpr live]
  rfl

section Displace

variable (linked : tables.ledger.Linked) (live : tables.queues.get? id = some queue)
  (absent : thread ∉ queue.waiting)
include linked live absent

/-- The former owner's walk clears a closed set of threads, and its record lists the queue no
more. -/
theorem displace_ok (h : (tables.alter id fun queue =>
      { queue with owner := some thread }).displace id thread queue.owner = .ok after) :
    ∃ inside, after.ledger = (tables.ledger.seize id thread).clear inside ∧
      (tables.ledger.install id thread).Closed inside ∧
      ∀ u, tables.ledger.owner? id = some u → u ≠ thread → u ∈ inside := by
  have owns : tables.ledger.owner? id = queue.owner := owner?_of_queue? live
  have installed := linked.install live absent
  cases ho : queue.owner with
  | none =>
    rw [ho] at owns h
    cases h
    refine ⟨∅, ?_, closed_empty _, ?_⟩
    · rw [clear_empty, ledger_alter, linked.seize_eq_alter]
      rw [owns]
      rintro u ⟨⟩
    · rw [owns]
      rintro u ⟨⟩
  | some former =>
    rw [ho] at owns h
    rw [displace] at h
    by_cases hf : former = thread
    · rw [if_pos hf] at h
      cases h
      have only : ∀ u, tables.ledger.owner? id = some u → u = thread := by
        rw [owns]
        rintro u ⟨⟩
        exact hf
      refine ⟨∅, ?_, closed_empty _, fun u hu hne => absurd (only u hu) hne⟩
      rw [clear_empty, ledger_alter, linked.seize_eq_alter only]
    · -- The walk from the former owner takes place before the new owner's record lists the
      -- queue, but it reads edges only, and these are there already.
      rw [if_neg hf] at h
      refine ⟨(tables.ledger.install id thread).chain former, ?_,
        closed_chain (fun a b => installed.hop_iff.mpr) former, ?_⟩
      · rw [disown_ok h, ledger_alter, chain_of_hop_eq (hop_install _ _ _),
          linked.seize_eq_write owns hf]
      · rw [owns]
        rintro u ⟨⟩ -
        exact self_mem_chain _ _

theorem displace_isOk (acyclic : (tables.ledger.install id thread).Acyclic) :
    ∃ after, (tables.alter id fun queue =>
      { queue with owner := some thread }).displace id thread queue.owner = .ok after := by
  cases queue.owner with
  | none => exact ⟨_, rfl⟩
  | some former =>
    rw [displace]
    split
    · exact ⟨_, rfl⟩
    · refine disown_isOk (fun u => ?_) former id
      rw [ledger_alter, ← hop_install, (linked.install live absent).hop_eq]
      exact acyclic u

end Displace

/-- Attaching completes the move. -/
theorem ledger_attached {freed : Tables} {inside : Set ThreadId}
    (h : freed.ledger = (tables.ledger.seize id thread).clear inside) :
    (freed.record thread (·.attach id)).ledger =
      (tables.ledger.install id thread).clear inside := by
  rw [ledger_record, h, write_clear (attach_bare id), seize_attach]

/-- A queue that has been taken was live and not waited on, and both walks ended. -/
theorem walks_of_acquire (h : tables.acquire id thread = .ok after) :
    ∃ queue freed, tables.queues.get? id = some queue ∧ thread ∉ queue.waiting ∧
      (tables.alter id fun queue => { queue with owner := some thread }).displace id thread
        queue.owner = .ok freed ∧
      (freed.record thread (·.attach id)).invalidate thread = .ok after := by
  cases live : tables.queues.get? id with
  | none => simp [acquire, Tables.queue, live, bind, Except.bind] at h
  | some queue =>
    rw [acquire_eq live] at h
    by_cases waits : thread ∈ queue.waiting
    · rw [if_pos waits] at h
      cases h
    · rw [if_neg waits] at h
      cases hd : (tables.alter id fun queue => { queue with owner := some thread }).displace id
          thread queue.owner with
      | error violation =>
        rw [hd] at h
        cases h
      | ok freed =>
        rw [hd] at h
        exact ⟨queue, freed, rfl, waits, hd, h⟩

theorem acquire_ok (sound : tables.Sound) (h : tables.acquire id thread = .ok after) :
    ∃ queue, tables.queues.get? id = some queue ∧ thread ∉ queue.waiting ∧ after.Sound ∧
      after.ledger.bare = (tables.ledger.install id thread).bare := by
  obtain ⟨queue, freed, live, absent, displaces, walked⟩ := walks_of_acquire h
  obtain ⟨inside, displaced, closed, former⟩ := displace_ok sound.linked live absent displaces
  have installed := sound.linked.install live absent
  have start := ledger_attached displaced
  have hops : (freed.record thread (·.attach id)).ledger.Hop =
      (tables.ledger.install id thread).Hop := by
    rw [start, hop_of_bare (bare_clear _ _)]
  have back := no_return_of_invalidate walked
  rw [hops, installed.hop_eq] at back
  have acyclic : (tables.ledger.install id thread).Acyclic :=
    sound.acyclic.of_new_edges (fun a b lends => (lends_of_install live lends).imp_right .inr)
      back
  -- both walks together have cleared a closed set
  have moved : after.ledger = (tables.ledger.install id thread).clear
      (inside ∪ (tables.ledger.install id thread).chain thread) := by
    rw [ledger_of_invalidate walked, chain_of_hop_eq hops, start, clear_clear]
  refine ⟨queue, live, absent, .of_clear moved (sound.consistent.install live absent) acyclic
    (sound.coherent.install sound.linked live absent (fun u hu => ?_)
      (.inr (self_mem_chain _ _))
      (closed.union (closed_chain (fun a b => installed.hop_iff.mpr) thread))), ?_⟩
  · by_cases hne : u = thread
    · exact .inr (hne ▸ self_mem_chain _ _)
    · exact .inl (former u hu hne)
  · rw [moved, bare_clear]

/-- A queue can be taken by a thread that does not wait on it and makes no ring. -/
theorem acquire_isOk (sound : tables.Sound) (live : tables.queues.get? id = some queue)
    (absent : thread ∉ queue.waiting) (acyclic : (tables.ledger.install id thread).Acyclic) :
    ∃ after, tables.acquire id thread = .ok after := by
  obtain ⟨freed, displaces⟩ := displace_isOk sound.linked live absent acyclic
  obtain ⟨inside, displaced, -, -⟩ := displace_ok sound.linked live absent displaces
  obtain ⟨after, walked⟩ : ∃ after,
      (freed.record thread (·.attach id)).invalidate thread = .ok after := by
    refine invalidate_isOk (fun u => ?_) thread
    rw [ledger_attached displaced, hop_of_bare (bare_clear _ _),
      (sound.linked.install live absent).hop_eq]
    exact acyclic u
  refine ⟨after, ?_⟩
  rw [acquire_eq live, if_neg absent, displaces]
  exact walked

end Tables

end Turnstile
