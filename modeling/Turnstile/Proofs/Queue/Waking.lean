import Mathlib.Data.List.Nodup
import Turnstile.Proofs.Queue.Sleepers
import Turnstile.Proofs.Sorting
import Turnstile.Trial

/-!
# Sleepers wake in turn

What a queue of sleepers comes to over any uses in a row, told by the sleepers that uses put in
(`SleepQueue.inserted`) and by those that come out (`SleepQueue.returned`). Neither is said in terms
of the order in which the queue keeps them.

* **The books** (`Sorted.books`): whoever was put in has come out, once, or is still there.
* **One sleeper** (`Sorted.popsLeast`): what is taken is the least of all that are there, by tick
  and then by arrival, if it is due; if nobody is, nothing is taken.
* **All that are due** (`Sorted.drains_iff`): taken one after another they come in the order of a
  stable sort by tick of those who were put in.

`wakes_least_first` says this of every queue that uses lead to.
-/

namespace Turnstile.SleepQueue

/-! ## Uses in a row -/

/-- The queue after uses in a row. -/
def used (queue : SleepQueue) (uses : List Use) : SleepQueue :=
  uses.foldl (fun queue use => (queue.use use).2) queue

/-- The sleepers that uses put in, in order, after `arrivals` others. -/
def inserted (arrivals : Nat) : List Use → List Sleeper
  | [] => []
  | .insert wakeAt thread :: rest =>
    ⟨wakeAt, arrivals + 1, thread⟩ :: inserted (arrivals + 1) rest
  | .pop _ :: rest => inserted arrivals rest
  | .drain _ :: rest => inserted arrivals rest

/-- The sleepers that one use takes out: those that are not there afterwards. -/
def taken (queue : SleepQueue) (use : Use) : List Sleeper :=
  queue.sleepers.filter fun sleeper => sleeper ∉ (queue.use use).2.sleepers

/-- The sleepers that come out, use by use. -/
def returned (queue : SleepQueue) : List Use → List Sleeper
  | [] => []
  | use :: rest => queue.taken use ++ (queue.use use).2.returned rest

/-- The threads that a use gives. -/
def Yield.threads : Yield → List ThreadId
  | nothing => []
  | one thread => thread.toList
  | many threads => threads

/-- The threads given, use by use. -/
def woken (queue : SleepQueue) : List Use → List ThreadId
  | [] => []
  | use :: rest => (queue.use use).1.threads ++ (queue.use use).2.woken rest

/-- Taking one sleeper after another until none is due gives these threads. -/
inductive Drains (now : Nat) : SleepQueue → List ThreadId → SleepQueue → Prop
  | rests {queue : SleepQueue} (nobody : (queue.popDue now).1 = none) :
    Drains now queue [] (queue.popDue now).2
  | takes {queue last : SleepQueue} {thread : ThreadId} {threads : List ThreadId}
    (first : (queue.popDue now).1 = some thread)
    (more : Drains now (queue.popDue now).2 threads last) :
    Drains now queue (thread :: threads) last

/-- The first wakes no later than the second. -/
def wakesBy (first second : Sleeper) : Bool := first.wakeAt ≤ second.wakeAt

/-- What it comes to when the next sleeper is taken, if it is due. -/
structure PopsLeast (queue : SleepQueue) (now : Nat) : Prop where
  none_iff : (queue.popDue now).1 = none ↔ ∀ sleeper ∈ queue.sleepers, now < sleeper.wakeAt
  unchanged : (queue.popDue now).1 = none → (queue.popDue now).2 = queue
  least : ∀ thread, (queue.popDue now).1 = some thread → ∃ sleeper ∈ queue.sleepers,
    sleeper.thread = thread ∧ sleeper.wakeAt ≤ now ∧
      (∀ other ∈ queue.sleepers, other ≠ sleeper → sleeper.Precedes other) ∧
      (queue.popDue now).2 = { queue with sleepers := queue.sleepers.erase sleeper }

variable {queue last : SleepQueue} {now : Nat} {threads : List ThreadId}

/-! ## Arrivals -/

theorem lt_arrival_of_mem_inserted {arrivals : Nat} {uses : List Use} {sleeper : Sleeper}
    (here : sleeper ∈ inserted arrivals uses) : arrivals < sleeper.arrival := by
  induction uses generalizing arrivals with
  | nil => cases here
  | cons use rest ih =>
    cases use with
    | insert wakeAt thread =>
      rcases List.mem_cons.mp here with rfl | later
      · exact Nat.lt_succ_self arrivals
      · have := ih later
        omega
    | pop now => exact ih here
    | drain now => exact ih here

/-- Sleepers are put in in the order of their numbers. -/
theorem pairwise_inserted (arrivals : Nat) (uses : List Use) :
    (inserted arrivals uses).Pairwise fun earlier later => earlier.arrival < later.arrival := by
  induction uses generalizing arrivals with
  | nil => exact .nil
  | cons use rest ih =>
    cases use with
    | insert wakeAt thread =>
      refine List.pairwise_cons.mpr ⟨fun other later => ?_, ih (arrivals + 1)⟩
      exact lt_arrival_of_mem_inserted later
    | pop now => exact ih arrivals
    | drain now => exact ih arrivals

theorem nodup_of_arrivals {arrived : List Sleeper}
    (order : arrived.Pairwise fun earlier later => earlier.arrival < later.arrival) :
    arrived.Nodup :=
  order.imp fun less same => by
    rw [same] at less
    exact Nat.lt_irrefl _ less

/-! ## Taking sleepers out -/

theorem popDue_of_due {first : Sleeper} (due : first.wakeAt ≤ now) (rest : List Sleeper)
    (arrivals : Nat) :
    popDue ⟨first :: rest, arrivals⟩ now = (some first.thread, ⟨rest, arrivals⟩) := by
  simp [popDue, due]

theorem popDue_of_late {first : Sleeper} (late : ¬ first.wakeAt ≤ now) (rest : List Sleeper)
    (arrivals : Nat) :
    popDue ⟨first :: rest, arrivals⟩ now = (none, ⟨first :: rest, arrivals⟩) := by
  simp [popDue, late]

theorem popDue_unchanged (nobody : (queue.popDue now).1 = none) : (queue.popDue now).2 = queue := by
  obtain ⟨sleepers, arrivals⟩ := queue
  cases sleepers with
  | nil => rfl
  | cons first rest =>
    by_cases due : first.wakeAt ≤ now
    · rw [popDue_of_due due] at nobody
      cases nobody
    · rw [popDue_of_late due]

/-- Taking one after another comes to an end, and gives what is taken at once. -/
theorem drains_iff_drainDue : Drains now queue threads last ↔
    (threads, last) = queue.drainDue now := by
  constructor
  · intro drains
    induction drains with
    | rests nobody => rw [drainDue_of_popDue_none nobody, popDue_unchanged nobody]
    | takes first more ih =>
      rw [drainDue_of_popDue_some first, ← ih]
  · intro same
    -- by induction on how many sleepers there are
    induction size : queue.sleepers.length generalizing queue threads with
    | zero =>
      have nobody : queue.sleepers = [] := List.length_eq_zero_iff.mp size
      obtain ⟨sleepers, arrivals⟩ := queue
      cases nobody
      cases same
      exact .rests rfl
    | succ size ih =>
      obtain ⟨sleepers, arrivals⟩ := queue
      cases sleepers with
      | nil => cases size
      | cons first rest =>
        by_cases due : first.wakeAt ≤ now
        · have pops := popDue_of_due due rest arrivals
          have gives : (popDue ⟨first :: rest, arrivals⟩ now).1 = some first.thread := by rw [pops]
          rw [drainDue_of_popDue_some gives, pops] at same
          cases same
          refine .takes gives ?_
          rw [pops]
          exact ih rfl (by simpa using size)
        · have nobody : (popDue ⟨first :: rest, arrivals⟩ now).1 = none := by
            rw [popDue_of_late due]
          have rests := Drains.rests nobody
          rw [drainDue_of_popDue_none nobody] at same
          cases same
          rwa [popDue_unchanged nobody] at rests

/-- Whoever is taken from the front of sleepers is who is not among the others. -/
theorem filter_notMem_of_front {front back : List Sleeper} (distinct : (front ++ back).Nodup) :
    (front ++ back).filter (fun sleeper => sleeper ∉ back) = front := by
  have apart := (List.nodup_append.mp distinct).2.2
  rw [List.filter_append, List.filter_eq_self.mpr, List.filter_eq_nil_iff.mpr, List.append_nil]
  · intro sleeper here
    simpa using here
  · intro sleeper here
    simpa using fun also => apart sleeper here sleeper also rfl

namespace Sorted

variable (sorted : queue.Sorted)
include sorted

theorem nodup : queue.sleepers.Nodup :=
  sorted.order.imp fun precedes same => by
    rw [same] at precedes
    exact precedes.asymm precedes

theorem use (use : Use) : (queue.use use).2.Sorted := by
  cases use with
  | insert wakeAt thread => exact sorted.insert wakeAt thread
  | pop now =>
    show (queue.popDue now).2.Sorted
    unfold popDue
    split
    · exact sorted
    · rename_i first rest same
      split
      · have order := sorted.order
        have arrived := sorted.arrived
        rw [same] at order arrived
        exact ⟨(List.pairwise_cons.mp order).2, fun other here =>
          arrived other (List.mem_cons_of_mem first here)⟩
      · exact sorted
  | drain now => exact sorted.drainDue now

theorem used (uses : List Use) : (queue.used uses).Sorted := by
  induction uses generalizing queue with
  | nil => exact sorted
  | cons use rest ih => exact ih (sorted.use use)

/-- Whoever is there before a use, or is put in by it, comes out or is there afterwards. The threads
that come out are those given. -/
theorem books_of_use (use : Use) :
    (queue.taken use ++ (queue.use use).2.sleepers).Perm
        (queue.sleepers ++ inserted queue.arrivals [use]) ∧
      (queue.use use).1.threads = (queue.taken use).map (·.thread) ∧
      (queue.use use).2.arrivals = queue.arrivals + (inserted queue.arrivals [use]).length := by
  have distinct := sorted.nodup
  unfold taken
  cases use with
  | insert wakeAt thread =>
    have nobody : queue.sleepers.filter (fun sleeper =>
        sleeper ∉ (queue.insert wakeAt thread).sleepers) = [] := by
      refine List.filter_eq_nil_iff.mpr fun sleeper here => ?_
      have stays : sleeper ∈ (queue.insert wakeAt thread).sleepers := mem_place.mpr (.inr here)
      simp [stays]
    show (queue.sleepers.filter (fun sleeper =>
        sleeper ∉ (queue.insert wakeAt thread).sleepers) ++ _).Perm _ ∧
      [] = (queue.sleepers.filter (fun sleeper =>
        sleeper ∉ (queue.insert wakeAt thread).sleepers)).map _ ∧ _
    rw [nobody]
    refine ⟨?_, rfl, rfl⟩
    exact (place_perm _ queue.sleepers).trans (List.perm_append_singleton _ _).symm
  | pop now =>
    show (queue.sleepers.filter (fun sleeper =>
        sleeper ∉ (queue.popDue now).2.sleepers) ++ (queue.popDue now).2.sleepers).Perm _ ∧
      (queue.popDue now).1.toList = (queue.sleepers.filter (fun sleeper =>
        sleeper ∉ (queue.popDue now).2.sleepers)).map _ ∧
      (queue.popDue now).2.arrivals = _
    obtain ⟨sleepers, arrivals⟩ := queue
    cases sleepers with
    | nil => simp [popDue, inserted]
    | cons first rest =>
      -- No two sleepers are the same, so whoever is missing afterwards is the one that
      -- stood in front.
      by_cases due : first.wakeAt ≤ now
      · have front := filter_notMem_of_front (show ([first] ++ rest).Nodup from distinct)
        rw [List.singleton_append] at front
        rw [popDue_of_due due, front]
        simp [inserted]
      · have nobody : (first :: rest).filter (fun sleeper => sleeper ∉ first :: rest) = [] :=
          List.filter_eq_nil_iff.mpr fun sleeper here => by simp [here]
        rw [popDue_of_late due, nobody]
        simp [inserted]
  | drain now =>
    have whole := List.takeWhile_append_dropWhile (p := fun other : Sleeper => other.wakeAt ≤ now)
      (l := queue.sleepers)
    have front := filter_notMem_of_front (whole.symm ▸ distinct)
    rw [whole] at front
    show (queue.sleepers.filter (fun sleeper =>
        sleeper ∉ queue.sleepers.dropWhile (·.wakeAt ≤ now)) ++
          queue.sleepers.dropWhile (·.wakeAt ≤ now)).Perm _ ∧
      (queue.sleepers.takeWhile (·.wakeAt ≤ now)).map _ = (queue.sleepers.filter (fun sleeper =>
        sleeper ∉ queue.sleepers.dropWhile (·.wakeAt ≤ now))).map _ ∧ _
    rw [front, whole]
    simp [inserted, SleepQueue.use, SleepQueue.drainDue]

/-- Whoever was there or was put in has come out or is still there, and the threads that came out
are those given. -/
theorem books (uses : List Use) :
    (queue.returned uses ++ (queue.used uses).sleepers).Perm
        (queue.sleepers ++ inserted queue.arrivals uses) ∧
      queue.woken uses = (queue.returned uses).map (·.thread) := by
  induction uses generalizing queue with
  | nil => exact ⟨by simp [returned, SleepQueue.used, inserted], rfl⟩
  | cons use rest ih =>
    obtain ⟨moved, given, arrivals⟩ := sorted.books_of_use use
    obtain ⟨later, givenLater⟩ := ih (sorted.use use)
    have more : inserted queue.arrivals (use :: rest) =
        inserted queue.arrivals [use] ++ inserted (queue.use use).2.arrivals rest := by
      rw [arrivals]
      cases use <;> rfl
    refine ⟨?_, ?_⟩
    · show ((queue.taken use ++ (queue.use use).2.returned rest) ++ _).Perm _
      rw [more, List.append_assoc, ← List.append_assoc queue.sleepers]
      refine (later.append_left (queue.taken use)).trans ?_
      rw [← List.append_assoc]
      exact moved.append_right _
    · show (queue.use use).1.threads ++ _ = (queue.taken use ++ _).map _
      rw [given, givenLater, List.map_append]

/-- The next sleeper precedes all others. -/
theorem popsLeast (now : Nat) : queue.PopsLeast now := by
  have order := sorted.order
  obtain ⟨sleepers, arrivals⟩ := queue
  cases sleepers with
  | nil => exact ⟨by simp [popDue], popDue_unchanged, fun thread given => by simp [popDue] at given⟩
  | cons first rest =>
    have before := (List.pairwise_cons.mp order).1
    by_cases due : first.wakeAt ≤ now
    · have pops := popDue_of_due due rest arrivals
      constructor
      · rw [pops]
        refine iff_of_false (fun nobody => by cases nobody) fun late => ?_
        have := late first List.mem_cons_self
        omega
      · exact popDue_unchanged
      · rw [pops]
        intro thread given
        cases given
        refine ⟨first, List.mem_cons_self, rfl, due, fun other here ne => ?_, by simp⟩
        exact before other ((List.mem_cons.mp here).resolve_left ne)
    · have pops := popDue_of_late due rest arrivals
      constructor
      · rw [pops]
        refine iff_of_true rfl fun sleeper here => ?_
        rcases List.mem_cons.mp here with rfl | behind
        · exact Nat.lt_of_not_le due
        · rcases before sleeper behind with later | ⟨same, -⟩ <;> omega
      · exact popDue_unchanged
      · rw [pops]
        intro thread given
        cases given

theorem nextDeadline_eq : queue.nextDeadline = (queue.sleepers.map (·.wakeAt)).min? := by
  have order := sorted.order
  obtain ⟨sleepers, arrivals⟩ := queue
  cases sleepers with
  | nil => rfl
  | cons first rest =>
    show some first.wakeAt = ((first :: rest).map (·.wakeAt)).min?
    symm
    rw [List.min?_eq_some_iff]
    refine ⟨by simp, ?_⟩
    simp only [List.map_cons, List.mem_cons, List.mem_map]
    rintro tick (rfl | ⟨other, here, rfl⟩)
    · exact Nat.le_refl _
    · rcases (List.pairwise_cons.mp order).1 other here with later | ⟨same, -⟩ <;> omega

/-- The sleepers that are due are those in front, and the others those behind. -/
theorem drainDue_eq (now : Nat) : queue.drainDue now =
    ((queue.sleepers.filter (·.wakeAt ≤ now)).map (·.thread),
      { queue with sleepers := queue.sleepers.filter (now < ·.wakeAt) }) := by
  have order := sorted.order
  unfold SleepQueue.drainDue
  generalize queue.sleepers = sleepers at order
  induction sleepers with
  | nil => rfl
  | cons first rest ih =>
    obtain ⟨before, order⟩ := List.pairwise_cons.mp order
    by_cases due : first.wakeAt ≤ now
    · have ih := ih order
      simp only [Prod.mk.injEq, SleepQueue.mk.injEq] at ih
      simp [due, ih]
    · -- behind a sleeper that is late nobody is due
      have late : ∀ other ∈ rest, now < other.wakeAt := by
        intro other here
        rcases before other here with later | ⟨same, -⟩ <;> omega
      have nobody : rest.filter (·.wakeAt ≤ now) = [] := by
        refine List.filter_eq_nil_iff.mpr fun other here => ?_
        simpa using late other here
      have all : rest.filter (now < ·.wakeAt) = rest := by
        refine List.filter_eq_self.mpr fun other here => ?_
        simpa using late other here
      simp [due, nobody, all, Nat.lt_of_not_le due]

/-- Taken one after another, the sleepers that are due come in the order of a stable sort by tick of
those that were put in. -/
theorem drains_iff {arrived : List Sleeper}
    (order : arrived.Pairwise fun earlier later => earlier.arrival < later.arrival)
    (among : ∀ sleeper ∈ queue.sleepers, sleeper ∈ arrived) :
    Drains now queue threads last ↔
      threads =
        ((arrived.filter fun sleeper => sleeper ∈ queue.sleepers ∧ sleeper.wakeAt ≤ now).mergeSort
        wakesBy).map (·.thread) ∧
      last = { queue with sleepers := queue.sleepers.filter (now < ·.wakeAt) } := by
  have distinct := nodup_of_arrivals order
  have turns : queue.sleepers.filter (·.wakeAt ≤ now) =
      (arrived.filter fun sleeper => sleeper ∈ queue.sleepers ∧ sleeper.wakeAt ≤ now).mergeSort
        wakesBy := by
    -- the same sleepers on both sides, and on both those of one tick stand as they arrived
    refine eq_mergeSort_of_keeps_ties ?_ ?_ (order.sublist List.filter_sublist)
      (fun _ _ => Nat.lt_asymm) ?_ ((sorted.order.sublist List.filter_sublist).imp ?_)
    · simp only [wakesBy, decide_eq_true_eq]
      intro a b c h ho
      exact Nat.le_trans h ho
    · simp only [wakesBy, Bool.or_eq_true, decide_eq_true_eq]
      intro a b
      exact Nat.le_total _ _
    · refine (List.perm_ext_iff_of_nodup (sorted.nodup.filter _) (distinct.filter _)).mpr
        fun sleeper => ?_
      simp only [List.mem_filter, decide_eq_true_eq]
      constructor
      · intro here
        exact ⟨among sleeper here.1, here⟩
      · intro here
        exact here.2
    · simp only [Sleeper.Precedes, wakesBy, decide_eq_true_eq]
      intro a b precedes
      omega
  rw [drains_iff_drainDue, sorted.drainDue_eq, ← turns, Prod.mk.injEq]

end Sorted

/-! ## The queue as a whole -/

/-- Over any uses in a row, from the beginning: those who were put in have numbers in order, and
each of them has come out, once, or is still there; the threads given are of those who came out. The
next deadline is the least tick there is. Taking a sleeper that is due gives the least of all that
are there, by tick and then by number, and nothing if nobody is due; and taking sleepers until
nobody is due gives exactly those who were, in the order of a stable sort by tick, and leaves a
deadline that is still to come. -/
theorem wakes_least_first (uses : List Use) :
    let queue := empty.used uses
    let arrived := inserted 0 uses
    (arrived.Pairwise fun earlier later => earlier.arrival < later.arrival) ∧
    (empty.returned uses ++ queue.sleepers).Perm arrived ∧
    (empty.returned uses ++ queue.sleepers).Nodup ∧
    empty.woken uses = (empty.returned uses).map (·.thread) ∧
    queue.size + (empty.woken uses).length = arrived.length ∧
    queue.nextDeadline = (queue.sleepers.map (·.wakeAt)).min? ∧
    ∀ now, queue.PopsLeast now ∧ ∃ last,
      (∀ threads later, Drains now queue threads later ↔
        threads =
          ((arrived.filter fun sleeper => sleeper ∈ queue.sleepers ∧ sleeper.wakeAt ≤ now).mergeSort
          wakesBy).map (·.thread) ∧ later = last) ∧
      last.sleepers = queue.sleepers.filter (now < ·.wakeAt) ∧
      ∀ tick, last.nextDeadline = some tick → now < tick := by
  intro queue arrived
  have sorted : queue.Sorted := Sorted.empty.used uses
  obtain ⟨books, given⟩ := Sorted.empty.books uses
  have books : (empty.returned uses ++ queue.sleepers).Perm arrived := books
  have order : arrived.Pairwise fun earlier later => earlier.arrival < later.arrival :=
    pairwise_inserted 0 uses
  have among : ∀ sleeper ∈ queue.sleepers, sleeper ∈ arrived := fun sleeper here =>
    books.subset (List.mem_append_right _ here)
  refine ⟨order, books, books.nodup_iff.mpr (nodup_of_arrivals order), given, ?_,
    sorted.nextDeadline_eq,
    fun now => ⟨sorted.popsLeast now, ?_⟩⟩
  · have count := books.length_eq
    rw [List.length_append] at count
    rw [given, List.length_map, Nat.add_comm]
    exact count
  · refine ⟨{ queue with sleepers := queue.sleepers.filter (now < ·.wakeAt) },
      fun threads later => sorted.drains_iff order among, rfl, fun tick next => ?_⟩
    obtain ⟨first, here, rfl⟩ := Option.map_eq_some_iff.mp next
    have here := List.mem_of_mem_head? here
    simpa using (List.mem_filter.mp here).2

/-- Two sleepers of one tick, put in out of order and taken at different times. -/
example :
    let queue := empty.used [.insert 20 ⟨3⟩, .insert 10 ⟨1⟩, .pop 9, .insert 10 ⟨2⟩, .pop 10]
    queue.popDue 10 = (some ⟨2⟩, ⟨[⟨20, 1, ⟨3⟩⟩], 3⟩) ∧ queue.nextDeadline = some 10 := by
  decide

end Turnstile.SleepQueue
