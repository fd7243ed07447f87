import Mathlib.Data.List.Basic
import Turnstile.SleepQueue

/-!
# Sleepers in waking order

A queue of sleepers is in waking order (`SleepQueue.Sorted`): by the tick at which they
wake, and those of one tick in order of arrival. Both inserting a sleeper and waking those
who are due keep it so.

In such a queue the sleepers that are due are exactly those in front (`Sorted.mem_due_iff`), and of
two that are due the one that precedes the other is woken first (`Sorted.woken_in_order`).
-/

namespace Turnstile

/-- The first of the two wakes before the second. -/
def Sleeper.Precedes (first second : Sleeper) : Prop :=
  first.wakeAt < second.wakeAt ∨
    first.wakeAt = second.wakeAt ∧ first.arrival < second.arrival

theorem Sleeper.Precedes.asymm {first second : Sleeper} (precedes : first.Precedes second) :
    ¬ second.Precedes first := by
  unfold Sleeper.Precedes at *
  omega

namespace SleepQueue

/-- Sleepers stand in waking order, and each has a number that has been given out. -/
structure Sorted (queue : SleepQueue) : Prop where
  order : queue.sleepers.Pairwise Sleeper.Precedes
  arrived : ∀ sleeper ∈ queue.sleepers, sleeper.arrival ≤ queue.arrivals

theorem mem_place {sleeper other : Sleeper} {sleepers : List Sleeper} :
    other ∈ place sleeper sleepers ↔ other = sleeper ∨ other ∈ sleepers := by
  rw [(place_perm sleeper sleepers).mem_iff, List.mem_cons]

/-- Whoever arrives last is put behind all that wake no later. -/
theorem pairwise_place {sleeper : Sleeper} {sleepers : List Sleeper}
    (order : sleepers.Pairwise Sleeper.Precedes)
    (latest : ∀ other ∈ sleepers, other.arrival < sleeper.arrival) :
    (place sleeper sleepers).Pairwise Sleeper.Precedes := by
  induction sleepers with
  | nil => exact List.pairwise_singleton _ _
  | cons first rest ih =>
    obtain ⟨before, order'⟩ := List.pairwise_cons.mp order
    unfold place
    split
    · rename_i earlier
      refine List.pairwise_cons.mpr ⟨fun other here => ?_,
        ih order' fun other here => latest other (List.mem_cons_of_mem _ here)⟩
      -- at the same tick the later arrival goes behind
      rcases mem_place.mp here with rfl | old
      · rcases Nat.lt_or_eq_of_le earlier with sooner | same
        · exact .inl sooner
        · exact .inr ⟨same, latest first List.mem_cons_self⟩
      · exact before other old
    · rename_i later
      have later := Nat.lt_of_not_le later
      refine List.pairwise_cons.mpr ⟨fun other here => .inl ?_, order⟩
      rcases List.mem_cons.mp here with rfl | old
      · exact later
      · rcases before other old with sooner | ⟨same, -⟩ <;> omega

namespace Sorted

variable {queue : SleepQueue} (sorted : queue.Sorted) {sleeper other : Sleeper} {now : Nat}

theorem empty : SleepQueue.empty.Sorted := ⟨.nil, by simp [SleepQueue.empty]⟩

include sorted

theorem insert (wakeAt : Nat) (thread : ThreadId) : (queue.insert wakeAt thread).Sorted where
  order := pairwise_place sorted.order fun other here =>
    Nat.lt_succ_of_le (sorted.arrived other here)
  arrived other here := by
    rcases mem_place.mp here with rfl | old
    · exact Nat.le_refl _
    · exact Nat.le_succ_of_le (sorted.arrived other old)

theorem drainDue (now : Nat) : (queue.drainDue now).2.Sorted where
  order := sorted.order.sublist (List.dropWhile_sublist _)
  arrived other here := sorted.arrived other ((List.dropWhile_sublist _).subset here)

/-- The sleepers that are due stand in front. -/
theorem mem_due_iff (here : sleeper ∈ queue.sleepers) :
    sleeper ∈ queue.sleepers.takeWhile (·.wakeAt ≤ now) ↔ sleeper.wakeAt ≤ now := by
  obtain ⟨sleepers, arrivals⟩ := queue
  have order : sleepers.Pairwise Sleeper.Precedes := sorted.order
  clear sorted
  show sleeper ∈ sleepers.takeWhile (·.wakeAt ≤ now) ↔ _
  replace here : sleeper ∈ sleepers := here
  induction sleepers with
  | nil => cases here
  | cons first rest ih =>
    obtain ⟨before, order⟩ := List.pairwise_cons.mp order
    rw [List.takeWhile_cons]
    rcases List.mem_cons.mp here with rfl | here
    · by_cases due : sleeper.wakeAt ≤ now <;> simp [due]
    · by_cases due : first.wakeAt ≤ now
      · simp only [due, decide_true, if_true, List.mem_cons, ih order here]
        constructor
        · rintro (rfl | due)
          · exact due
          · exact due
        · exact .inr
      · -- nobody behind a sleeper that is late is due
        have later : ¬ sleeper.wakeAt ≤ now := by
          rcases before sleeper here with sooner | ⟨same, -⟩ <;> omega
        simp [due, later]

/-- Those who are not due stay. -/
theorem mem_drainDue_iff (here : sleeper ∈ queue.sleepers) :
    sleeper ∈ (queue.drainDue now).2.sleepers ↔ now < sleeper.wakeAt := by
  have due : sleeper ∈ queue.sleepers.takeWhile (·.wakeAt ≤ now) ↔ sleeper.wakeAt ≤ now :=
    sorted.mem_due_iff here
  have whole := List.takeWhile_append_dropWhile (p := fun other : Sleeper => other.wakeAt ≤ now)
    (l := queue.sleepers)
  rw [← whole] at here
  have order := sorted.order
  rw [← whole] at order
  rw [← Nat.not_le, ← due]
  constructor
  · intro left first
    exact (List.pairwise_append.mp order).2.2 _ first _ left |>.asymm
      ((List.pairwise_append.mp order).2.2 _ first _ left)
  · exact (List.mem_append.mp here).resolve_left

/-- Of two sleepers that are due, the one that precedes the other is woken first. -/
theorem woken_in_order (here : sleeper ∈ queue.sleepers) (here' : other ∈ queue.sleepers)
    (precedes : sleeper.Precedes other) (due : sleeper.wakeAt ≤ now) (due' : other.wakeAt ≤ now) :
    [sleeper.thread, other.thread].Sublist (queue.drainDue now).1 := by
  have order := sorted.order.sublist (List.takeWhile_sublist (·.wakeAt ≤ now))
  obtain ⟨before, after, same⟩ := List.append_of_mem ((sorted.mem_due_iff here).mpr due)
  have here' := (sorted.mem_due_iff here').mpr due'
  rw [same] at here' order
  obtain ⟨-, -, apart⟩ := List.pairwise_append.mp order
  have behind : other ∈ after := by
    rcases List.mem_append.mp here' with early | late
    · exact absurd (apart other early sleeper List.mem_cons_self) precedes.asymm
    · rcases List.mem_cons.mp late with rfl | late
      · exact absurd precedes precedes.asymm
      · exact late
  have pair : [sleeper, other].Sublist (queue.sleepers.takeWhile (·.wakeAt ≤ now)) := by
    rw [same]
    exact ((List.singleton_sublist.mpr behind).cons_cons sleeper).trans
      (List.sublist_append_right _ _)
  exact pair.map _

end Sorted

end SleepQueue

end Turnstile
