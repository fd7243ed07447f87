import Turnstile.Proofs.Ledger.Weighing

/-!
# Moves and the weights kept

Every move that changes what some thread has to lend clears the weights kept for a set of
threads. Here is, for each move, how large that set has to be for the weights still kept to
stay right: it holds the threads whose lenders or base weight the move changes, and with a thread
all that it lends to.

Placing a queue, and withdrawing a waiter from a queue without owner, change nobody's lenders,
and nothing has to be cleared.
-/

namespace Turnstile.Ledger

variable {ledger : Ledger} {id : QueueId} {thread : ThreadId} {queue : Queue}
  {inside : Set ThreadId}

/-! ## Clearing after a move -/

/-- `Coherent.of_frame` for a ledger that has been cleared. -/
theorem Coherent.of_clear {moved : Ledger} (coherent : ledger.Coherent) (linked : moved.Linked)
    (records : ∀ thread ∉ inside, moved.record thread = ledger.record thread)
    (lenders : ∀ thread ∉ inside, moved.lenders thread = ledger.lenders thread)
    (closed : moved.Closed inside) : (moved.clear inside).Coherent := by
  have record : ∀ thread ∉ inside, (moved.clear inside).record thread = ledger.record thread :=
    fun thread outside => (record_clear_of_notMem outside).trans (records thread outside)
  refine coherent.of_frame inside (linked.of_bare (bare_clear _ _))
    (fun thread hm => memo_clear_of_mem hm) (fun thread outside => ?_) (fun thread outside => ?_)
    (fun thread outside => ?_) closed
  · rw [record thread outside]
  · rw [record thread outside]
  · rw [lenders_of_bare (bare_clear _ _), lenders thread outside]

/-- A queue that a thread does not own has no part in what is lent to the thread. -/
theorem lenders_of_alter (id : QueueId) {after : Ledger}
    (owned : (after.record thread).owned = (ledger.record thread).owned)
    (foreign : id ∉ (ledger.record thread).owned)
    (queues : ∀ other, other ≠ id → after.queue? other = ledger.queue? other) :
    after.lenders thread = ledger.lenders thread := by
  refine lenders_congr owned fun other owns => lendersAt_congr (queues other ?_)
  rintro rfl
  exact foreign owns

/-- A queue that does not donate has no part in what is lent to anyone. -/
theorem lendersAt_of_not_donates (h : ledger.donates id = false) : ledger.lendersAt id = [] := by
  unfold lendersAt
  unfold donates at h
  cases live : ledger.queue? id with
  | none => rfl
  | some queue =>
    rw [live] at h
    have donation : queue.donation = false := h
    simp [donation]

theorem queue?_alter_of_ne (ledger : Ledger) {other : QueueId} (h : other ≠ id)
    (f : Queue → Queue) : (ledger.alter id f).queue? other = ledger.queue? other :=
  if_neg h

/-- Where the owner of a queue is inside, no record outside lists the queue. -/
theorem Linked.notMem_owned (linked : ledger.Linked)
    (owner : ∀ u, ledger.owner? id = some u → u ∈ inside) :
    ∀ u ∉ inside, id ∉ (ledger.record u).owned :=
  fun u outside owns => outside (owner u ((linked.owned_iff u id).mp owns))

/-! ## Moves -/

section Moves

variable (coherent : ledger.Coherent) (linked : ledger.Linked)
include coherent linked

theorem Coherent.vacate (owner : ∀ u, ledger.owner? id = some u → u ∈ inside)
    (closed : (ledger.vacate id).Closed inside) :
    ((ledger.vacate id).clear inside).Coherent := by
  have foreign := linked.notMem_owned owner
  have records : ∀ u ∉ inside, (ledger.vacate id).record u = ledger.record u :=
    fun u outside => ThreadState.detach_of_notMem (foreign u outside)
  refine coherent.of_clear (linked.vacate id) records (fun u outside => ?_) closed
  exact lenders_of_alter id (by rw [records u outside]) (foreign u outside)
    fun other hne => queue?_alter_of_ne _ hne _

theorem Coherent.install (live : ledger.queue? id = some queue)
    (absent : thread ∉ queue.waiting) (owner : ∀ u, ledger.owner? id = some u → u ∈ inside)
    (taker : thread ∈ inside) (closed : (ledger.install id thread).Closed inside) :
    ((ledger.install id thread).clear inside).Coherent := by
  have foreign := linked.notMem_owned owner
  have records : ∀ u ∉ inside, (ledger.install id thread).record u = ledger.record u := by
    intro u outside
    have hne : thread ≠ u := by
      rintro rfl
      exact outside taker
    rw [record_install, if_neg hne]
    exact ThreadState.detach_of_notMem (foreign u outside)
  refine coherent.of_clear (linked.install live absent) records (fun u outside => ?_) closed
  exact lenders_of_alter id (by rw [records u outside]) (foreign u outside)
    fun other hne => queue?_alter_of_ne _ hne _

theorem Coherent.close (nobody : ledger.waiters id = [])
    (owner : ∀ u, ledger.owner? id = some u → u ∈ inside)
    (closed : (ledger.close id).Closed inside) : ((ledger.close id).clear inside).Coherent := by
  have foreign := linked.notMem_owned owner
  have records : ∀ u ∉ inside, (ledger.close id).record u = ledger.record u :=
    fun u outside => ThreadState.detach_of_notMem (foreign u outside)
  refine coherent.of_clear (linked.close nobody) records (fun u outside => ?_) closed
  exact lenders_of_alter id (by rw [records u outside]) (foreign u outside)
    fun other hne => if_neg hne

theorem Coherent.place (free : ledger.queue? id = none) (unowned : queue.owner = none)
    (nobody : queue.waiting = []) : (ledger.place id queue).Coherent := by
  refine coherent.of_frame ∅ (linked.place free unowned nobody) (fun _ h => h.elim)
    (fun _ _ => rfl) (fun _ _ => rfl) (fun u _ => ?_) (closed_empty _)
  refine lenders_of_alter id rfl (fun owns => ?_) fun other hne => if_neg hne
  rw [linked.owned_iff, owner?, free] at owns
  cases owns

/-- The owner of the queue, if it donates, is among those that the thread now lends to. -/
theorem Coherent.join (live : ledger.queue? id = some queue)
    (foreign : queue.owner ≠ some thread) (idle : (ledger.record thread).waitingOn = none)
    (joins : thread ∈ inside)
    (closed : (ledger.join id thread).Closed inside) :
    ((ledger.join id thread).clear inside).Coherent := by
  have record : ∀ u ∉ inside, (ledger.join id thread).record u = ledger.record u := by
    intro u outside
    have hne : thread ≠ u := by
      rintro rfl
      exact outside joins
    rw [record_join, if_neg hne]
  refine coherent.of_clear (linked.join live foreign idle) record (fun u outside => ?_) closed
  refine lenders_congr (by rw [record u outside]) fun other owns => ?_
  by_cases ho : other = id
  · subst ho
    have same : (ledger.join other thread).donates other = ledger.donates other := by simp
    cases donation : ledger.donates other with
    | false =>
      rw [lendersAt_of_not_donates donation,
        lendersAt_of_not_donates (same.trans donation)]
    | true =>
      refine absurd (closed thread u (lends_iff.mpr ⟨other, same.trans donation, ?_, ?_⟩) joins)
        outside
      · simp [waiters_join _ _ _ _ live]
      · rw [owner?_join, ← linked.owned_iff]
        exact owns
  · exact lendersAt_congr (queue?_alter_of_ne _ ho _)

/-- Without an owner, a queue is in nobody's lenders. -/
theorem Coherent.withdraw (waits : thread ∈ ledger.waiters id)
    (unowned : ledger.owner? id = none) : (ledger.withdraw id thread).Coherent := by
  refine coherent.of_frame ∅ (linked.withdraw waits) (fun _ h => h.elim)
    (fun u _ => ?_) (fun u _ => ?_) (fun u _ => ?_) (closed_empty _)
  · rw [record_withdraw]
    split <;> rfl
  · rw [record_withdraw]
    split <;> rfl
  · refine lenders_of_alter id (by simp) (fun owns => ?_) fun other hne =>
      queue?_alter_of_ne _ hne _
    rw [linked.owned_iff, unowned] at owns
    cases owns

theorem Coherent.dismiss (leaves : thread ∈ inside)
    (donee : ∀ u, ledger.Lends thread u → u ∈ inside)
    (closed : (ledger.dismiss thread).Closed inside) :
    ((ledger.dismiss thread).clear inside).Coherent := by
  have record : ∀ u ∉ inside, (ledger.dismiss thread).record u = ledger.record u := by
    intro u outside
    have hne : thread ≠ u := by
      rintro rfl
      exact outside leaves
    rw [record_dismiss, if_neg hne]
  refine coherent.of_clear (linked.dismiss thread) record (fun u outside => ?_) closed
  refine lenders_congr (by rw [record u outside]) fun id owns => ?_
  cases donation : ledger.donates id with
  | false =>
    rw [lendersAt_of_not_donates donation,
      lendersAt_of_not_donates ((donates_dismiss _ _ _).trans donation)]
  | true =>
    -- the queue donates to a thread outside, so the thread that leaves does not wait on it
    obtain ⟨queue, live, holder⟩ := Option.bind_eq_some_iff.mp ((linked.owned_iff u id).mp owns)
    have absent : thread ∉ queue.waiting := fun waits => outside <| donee u
      ⟨id, queue, live, donates_of_queue? live ▸ donation, waits, holder⟩
    simp only [lendersAt, Ledger.dismiss, live, Option.map_some, filter_of_notMem absent]

/-- A change of base weight changes nobody's lenders. -/
theorem Coherent.weigh {weight : Int} (weighed : thread ∈ inside)
    (closed : ledger.Closed inside) :
    ((ledger.write thread fun state => { state with base := weight }).clear inside).Coherent := by
  have others : ∀ u ∉ inside, (ledger.write thread fun state =>
      { state with base := weight }).record u = ledger.record u := by
    intro u outside
    refine if_neg ?_
    rintro rfl
    exact outside weighed
  refine coherent.of_clear (linked.weigh weight) others (fun u outside => ?_) closed
  exact lenders_congr (by rw [others u outside]) fun _ _ => rfl

end Moves

end Turnstile.Ledger
