import Turnstile.Proofs.Kernel.Ending
import Turnstile.Proofs.Simulation.Joining
import Turnstile.Proofs.Tables.Erasing

/-!
# Whoever ends with a lock strands those who wait for it

Tables are **attended** (`Tables.Attended`) if every queue that somebody waits on has an owner, who
can hand it on. A lock that is released goes to a waiter, and so does the queue of a join point when
its target exits. All other queues of a thread that ends are left without owner, and nobody who
waits on one of them is woken.

* **`Tables.Erased.attended_iff`**: tables stay attended when a thread leaves if it holds nobody up
  (`Tables.HoldsUp`), and only then.
* **`exit_attended_iff`**: what that comes to for a thread that finishes, and for one that exits
  through its join point and has handed that on.
* **`finish_strands_waiter`**: a run in which a thread finishes with a lock and another one waits
  for the lock to the end.
-/

namespace Turnstile

open Kernel LawfulMachine

/-! ## Tables -/

namespace Tables

open Ledger

variable {tables after handed closed : Tables} {thread : ThreadId} {id : QueueId}
  {winner : Option ThreadId}

/-- Every queue that somebody waits on has an owner. -/
def Attended (tables : Tables) : Prop :=
  ∀ id queue, tables.queues.get? id = some queue → queue.waiting ≠ [] → queue.owner ≠ none

/-- The thread owns the queue, and somebody waits on it. -/
def HoldsUp (tables : Tables) (thread : ThreadId) (id : QueueId) : Prop :=
  ∃ queue, tables.queues.get? id = some queue ∧ queue.owner = some thread ∧ queue.waiting ≠ []

/-- It is enough to look at all slots. -/
theorem attended_of_slots (h : ∀ slot ∈ tables.queues.slots, ∀ queue ∈ slot.queue,
    queue.waiting ≠ [] → queue.owner ≠ none) : tables.Attended := by
  intro id queue live
  have held := List.mem_of_getElem? (QueueTable.get?_eq_some_iff.mp live)
  exact h _ held queue rfl

/-- Without a thread tables are still attended just if it held nobody up. -/
theorem Erased.attended_iff (erased : Erased tables after thread) (attended : tables.Attended) :
    after.Attended ↔ ∀ id, ¬ tables.HoldsUp thread id := by
  constructor
  · rintro stays id ⟨queue, live, owns, waits⟩
    exact stays id _ (erased.released id queue live owns) waits rfl
  · intro free id place there waits unowned
    have lives := erased.live id
    rw [there, Option.isSome_some] at lives
    obtain ⟨queue, live⟩ := Option.isSome_iff_exists.mp lives.symm
    by_cases owns : queue.owner = some thread
    · obtain rfl := Option.some.inj (there.symm.trans (erased.released id queue live owns))
      exact free id ⟨queue, live, owns, waits⟩
    · by_cases listed : thread ∈ queue.waiting
      · obtain rfl := Option.some.inj (there.symm.trans (erased.left id queue live listed))
        exact attended id queue live (List.ne_nil_of_mem listed) unowned
      · obtain rfl := Option.some.inj (there.symm.trans (erased.queues id queue live owns listed))
        exact attended id place live waits unowned

/-- A queue that is handed on and then closed is gone, and all others are as they were. -/
theorem Sound.queues_of_closed (sound : tables.Sound)
    (hands : tables.handOver id = .ok (winner, handed))
    (closes : handed.closeQueue id = .ok closed) :
    closed.Sound ∧ ∀ other, closed.queues.get? other =
      if other = id then none else tables.queues.get? other := by
  obtain ⟨queue, live⟩ := live_of_handOver hands
  obtain ⟨winner', handed', hands', sound', among, -, bare⟩ := handOver_ok sound live
  cases hands.symm.trans hands'
  obtain ⟨left, live', empty⟩ := live_of_closeQueue closes
  obtain ⟨closed', closes', sound'', bare'⟩ := closeQueue_ok sound' live' empty
  cases closes.symm.trans closes'
  refine ⟨sound'', fun other => ?_⟩
  have queues : closed.queues.get? other = if other = id then none else handed.queues.get? other :=
    congrFun (queue?_of_bare bare') other
  rw [queues]
  split
  · rfl
  · rename_i ne
    exact (handed_of_bare sound.linked live among bare).queues other ne

section Closed

variable (queues : ∀ other, closed.queues.get? other =
  if other = id then none else tables.queues.get? other)
include queues

theorem attended_of_closed (attended : tables.Attended) : closed.Attended := by
  intro other queue live
  rw [queues] at live
  split at live
  · cases live
  · exact attended other queue live

theorem holdsUp_of_closed {other : QueueId} :
    closed.HoldsUp thread other ↔ other ≠ id ∧ tables.HoldsUp thread other := by
  unfold HoldsUp
  rw [queues]
  by_cases same : other = id <;> simp [same]

end Closed

end Tables

/-! ## Ending -/

section

variable {σ : Type} [LawfulMachine σ] {kernel : Kernel σ}

/-- In a kernel whose tables are attended, a thread can always finish. Its queues are left without
owner and with all their waiters, and the tables stay attended just if it held nobody up. If it
exits through its join point instead, the tables stay attended just if it held nobody up on a queue
other than that of the join point. -/
theorem exit_attended_iff (proper : Proper kernel.machine) (reachable : kernel.tables.Reachable)
    (attended : kernel.tables.Attended) :
    (∃ after, Scheduler.finish kernel = .ok .finished after ∧
      (∀ id queue, kernel.tables.queues.get? id = some queue →
        queue.owner = some (Machine.current kernel.machine) →
        after.tables.queues.get? id = some { queue with owner := none }) ∧
      (after.tables.Attended ↔
        ∀ id, ¬ kernel.tables.HoldsUp (Machine.current kernel.machine) id)) ∧
    ∀ index progress after, Join.exit index kernel = .ok progress after →
      progress = .finished ∧ ∃ point, kernel.joins[index]? = some point ∧
        point.target = Machine.current kernel.machine ∧
        (after.tables.Attended ↔
          ∀ id, id ≠ point.queue → ¬ kernel.tables.HoldsUp point.target id) := by
  have sound := reachable.sound
  constructor
  · obtain ⟨gone, forgets, -, bare⟩ := Tables.forget_ok sound (Machine.current kernel.machine)
    have erased := sound.erased forgets bare
    exact ⟨_, finish_ok proper rfl forgets, erased.released, erased.attended_iff attended⟩
  · intro index progress after done
    obtain ⟨ended, point, winner, handed, closed, made, target, hands, closes, forgets⟩ :=
      parts_of_joinExit proper done
    obtain ⟨sound', queues⟩ := sound.queues_of_closed hands closes
    obtain ⟨gone, forgets', -, bare⟩ := Tables.forget_ok sound' point.target
    cases forgets.symm.trans forgets'
    have erased := sound'.erased forgets bare
    refine ⟨ended, point, made, target.symm, ?_⟩
    rw [erased.attended_iff (Tables.attended_of_closed queues attended)]
    simp only [Tables.holdsUp_of_closed queues, not_and]

end

namespace Simulation

/-- The tables in step 15 of `parting`, as calls of them. -/
theorem parting_reachable : (steps 15 parting).kernel.tables.Reachable := by
  have arrives : Tables.run [.newQueue true, .newQueue true, .acquire ⟨1⟩ ⟨1⟩, .acquire ⟨0⟩ ⟨2⟩,
      .enqueue ⟨1⟩ ⟨2⟩, .enqueue ⟨0⟩ ⟨3⟩] (.fresh .priority Config.default.seed) =
        .ok (steps 15 parting).kernel.tables := by
    decide +kernel
  exact (Tables.Reachable.fresh .priority _).run arrives

/-- In step 15 of `parting` the first thread owns the queue of its join point and no other, and the
second one waits there. It exits through the join point and nobody is left behind. If it finished
instead, the second thread would be. -/
theorem exit_attended_iff_parting :
    let kernel := (steps 15 parting).kernel
    (LawfulMachine.Proper kernel.machine ∧ kernel.tables.Reachable ∧ kernel.tables.Attended) ∧
    (∃ after, Scheduler.finish kernel = .ok .finished after ∧
      after.tables.queues.get? ⟨1⟩ = some ⟨.priority, true, none, [⟨2⟩]⟩ ∧
      ¬ after.tables.Attended) ∧
    ∃ after, Join.exit 0 kernel = .ok .finished after ∧ after.tables.Attended := by
  intro kernel
  have orderly : (steps 15 parting).Orderly Request.orderly :=
    orderly_of_untroubled (fun _ _ kept => kept) (orderly_start .default 10 (by decide +kernel))
      (by decide +kernel) (Nat.le_refl 15)
  have attended : kernel.tables.Attended := Tables.attended_of_slots (by decide +kernel)
  have caller : Machine.current kernel.machine = ⟨1⟩ := by decide +kernel
  have held : kernel.tables.queues.get? ⟨1⟩ = some ⟨.priority, true, some ⟨1⟩, [⟨2⟩]⟩ := by
    decide +kernel
  obtain ⟨⟨after, finishes, released, strands⟩, exits⟩ :=
    exit_attended_iff orderly.sane parting_reachable attended
  rw [caller] at released strands
  refine ⟨⟨orderly.sane, parting_reachable, attended⟩,
    ⟨after, finishes, released _ _ held rfl, fun stays => ?_⟩, ?_⟩
  · exact strands.mp stays ⟨1⟩ ⟨_, held, rfl, by decide⟩
  · have returns : (EStateM.run' (Join.exit 0) kernel).isSome = true := by decide +kernel
    have queue : (kernel.joins[0]?).map (·.queue) = some ⟨1⟩ := by decide +kernel
    have only : (kernel.tables.state ⟨1⟩).owned = [⟨1⟩] := by decide +kernel
    unfold EStateM.run' EStateM.run at returns
    cases done : Join.exit 0 kernel with
    | error violation last =>
      rw [done] at returns
      cases returns
    | ok progress last =>
      obtain ⟨ended, point, made, target, stays⟩ := exits 0 progress last done
      refine ⟨last, ended ▸ rfl, stays.mpr fun id ne holds => ne ?_⟩
      obtain ⟨_, live, owns, -⟩ := holds
      rw [target, caller] at owns
      have mine : id ∈ (kernel.tables.state ⟨1⟩).owned :=
        ((orderly.sound.owner_iff live).mp owns).2
      rw [only] at mine
      rw [made] at queue
      exact (List.mem_singleton.mp mine).trans (Option.some.inj queue).symm

/-- The first thread takes the lock and finishes with it after a yield, in which the second one
begins to wait for the lock. -/
def strandingScript : List Operation :=
  [.request .lock, .spawn [.request (.lockAcquire 0), .request .yield, .request .finish],
    .spawn [.request (.lockAcquire 0), .request (.lockRelease 0)], .run]

def stranding : Simulation := start .default 10 strandingScript

/-- The tables in step 11 of `stranding`, as calls of them. -/
theorem stranding_reachable : (steps 11 stranding).kernel.tables.Reachable := by
  have arrives : Tables.run [.newQueue true, .acquire ⟨0⟩ ⟨1⟩, .enqueue ⟨0⟩ ⟨2⟩]
      (.fresh .priority Config.default.seed) = .ok (steps 11 stranding).kernel.tables := by
    decide +kernel
  exact (Tables.Reachable.fresh .priority _).run arrives

/-- In step 11 the first thread finishes with the lock. The second one stays in its queue, which
nobody owns any more, and the run comes to its end with the second thread asleep. -/
theorem finish_strands_waiter :
    let run := fun m => steps m stranding
    ((run 11).kernel.tables.Reachable ∧ (run 11).kernel.tables.Attended ∧
      (run 11).Calls ⟨1⟩ .finish) ∧
    ((run 12).kernel.tables.queues.get? ⟨0⟩ = some ⟨.priority, true, none, [⟨2⟩]⟩ ∧
      ¬ (run 12).kernel.tables.Attended) ∧
    stranding.run.untroubled = true ∧ stranding.run.step.isNone = true ∧
      stranding.run.statuses = [(⟨1⟩, .finished), (⟨2⟩, .blocked)] := by
  intro run
  have left : (run 12).kernel.tables.queues.get? ⟨0⟩ = some ⟨.priority, true, none, [⟨2⟩]⟩ := by
    decide +kernel
  have before : (run 11).kernel.tables.Attended := Tables.attended_of_slots (by decide +kernel)
  refine ⟨⟨stranding_reachable, before, by decide +kernel, _, rfl⟩, ⟨left, fun attended => ?_⟩,
    by decide +kernel, by decide +kernel, by decide +kernel⟩
  exact attended _ _ left (by decide) rfl

end Simulation

end Turnstile
