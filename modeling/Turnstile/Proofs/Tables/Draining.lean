import Turnstile.Proofs.Sorting
import Turnstile.Proofs.Tables.HandOver

/-!
# Draining a queue

A queue that is handed over again and again gives each of its waiters its turn and is then left
without owner (`hand_overs_drain`). Under priority the turns come in the order of a stable sort of
the waiters by what they brought into the choice before the first of the calls: a hand-over leaves
what the other waiters bring (`Sound.weighs_waiter`) and their stamps, so that each winner precedes
all those that come after it, and no other order of the waiters has this property
(`eq_mergeSort_of_precedes`).
-/

namespace Turnstile.Tables

open Ledger

variable {tables after : Tables} {id : QueueId} {queue : Queue} {thread : ThreadId}

/-- Hand a queue over so many times in a row, and say to whom. -/
def handOvers (id : QueueId) : (count : Nat) → Tables →
    Except Violation (List (Option ThreadId) × Tables)
  | 0, tables => .ok ([], tables)
  | count + 1, tables => do
    let (winner, tables) ← tables.handOver id
    let (winners, tables) ← tables.handOvers id count
    return (winner :: winners, tables)

theorem handOvers_succ {winner : Option ThreadId} {winners : List (Option ThreadId)} {count : Nat}
    {next : Tables} (h : tables.handOver id = .ok (winner, next))
    (ho : next.handOvers id count = .ok (winners, after)) :
    tables.handOvers id (count + 1) = .ok (winner :: winners, after) := by
  simp only [handOvers, h, ho, bind, Except.bind]
  rfl

/-! ## A stable sort -/

section Stable

variable {stake : ThreadId → Int} {waiting winners : List ThreadId}

/-- The one brings no less than the other. -/
def outweighs (stake : ThreadId → Int) (first second : ThreadId) : Bool :=
  stake second ≤ stake first

/-- An order of the waiters in which each precedes all that come after it is the stable sort. -/
theorem eq_mergeSort_of_precedes (stamps : waiting.Pairwise fun earlier later =>
      (tables.state earlier).enqueuedAt < (tables.state later).enqueuedAt)
    (same : winners.Perm waiting) (ordered : winners.Pairwise (tables.Precedes stake)) :
    winners = waiting.mergeSort (outweighs stake) := by
  refine eq_mergeSort_of_keeps_ties ?_ ?_ stamps (fun _ _ => Nat.lt_asymm) same
    (ordered.imp fun {first second} precedes => ?_)
  · simp only [outweighs, decide_eq_true_eq]
    intro a b c h ho
    exact ho.trans h
  · simp only [outweighs, Bool.or_eq_true, decide_eq_true_eq]
    intro a b
    exact le_total _ _
  · simp only [outweighs, decide_eq_true_eq]
    rcases precedes with more | ⟨ties, earlier⟩
    · exact ⟨more.le, fun less => absurd less more.not_ge⟩
    · exact ⟨ties.le, fun _ => earlier⟩

end Stable

/-! ## Turns -/

/-- A queue that nobody waits on goes to nobody, however often. -/
theorem handOvers_empty (sound : tables.Sound) (live : tables.queues.get? id = some queue)
    (empty : queue.waiting = []) (count : Nat) :
    ∃ after, tables.handOvers id count = .ok (List.replicate count none, after) ∧
      after.queues.get? id = some
        { queue with owner := if count = 0 then queue.owner else none, waiting := [] } := by
  induction count generalizing tables queue with
  | zero => exact ⟨tables, rfl, by rw [live, if_pos rfl, ← empty]⟩
  | succ count ih =>
    obtain ⟨winner, next, ok, sound', among, -, bare⟩ := handOver_ok sound live
    obtain rfl : winner = none := by
      rw [Option.eq_none_iff_forall_ne_some]
      rintro thread rfl
      exact absurd (among thread rfl) (empty ▸ List.not_mem_nil)
    have handed := handed_of_bare sound.linked live among bare
    obtain ⟨after, again, place⟩ := ih sound' handed.place empty
    refine ⟨after, ?_, ?_⟩
    · rw [List.replicate_succ]
      exact handOvers_succ ok again
    · rw [place, if_neg count.succ_ne_zero]
      split <;> rfl

/-- A waiter that is not chosen stands as it stood. -/
theorem Handed.precedes_iff {next : Tables} {winner : Option ThreadId}
    {weight weight' : ThreadId → Int}
    (handed : Handed tables next id queue winner) {first second : ThreadId}
    (hf : weight' first = weight first) (hs : weight' second = weight second) :
    next.Precedes (next.stake weight' queue.donation) first second ↔
      tables.Precedes (tables.stake weight queue.donation) first second := by
  simp only [Precedes, stake, handed.base, handed.enqueuedAt, hf, hs]

/-- Each waiter of a queue has one turn, and under priority each turn goes before all that
follow. -/
theorem turns (sound : tables.Sound) (live : tables.queues.get? id = some queue)
    {weight : ThreadId → Int} (weighs : ∀ thread, tables.ledger.Weighs thread (weight thread)) :
    ∃ winners : List ThreadId, winners.Perm queue.waiting ∧
      (tables.policy = .priority →
        winners.Pairwise (tables.Precedes (tables.stake weight queue.donation))) ∧
      ∀ count, ∃ after,
        tables.handOvers id (queue.waiting.length + count) =
          .ok (winners.map some ++ List.replicate count none, after) ∧
        after.queues.get? id = some
          { queue with
            owner := if count = 0 then winners.getLast?.or queue.owner else none
            waiting := [] } := by
  induction hn : queue.waiting.length generalizing tables queue weight with
  | zero =>
    have empty := List.length_eq_zero_iff.mp hn
    refine ⟨[], by rw [empty], fun _ => .nil, fun count => ?_⟩
    rw [Nat.zero_add]
    exact handOvers_empty sound live empty count
  | succ n ih =>
    obtain ⟨chosen, next, ok, sound', among, nobody, bare⟩ := handOver_ok sound live
    obtain ⟨winner, rfl⟩ : ∃ winner, chosen = some winner := by
      refine Option.ne_none_iff_exists'.mp fun none => ?_
      rw [nobody none] at hn
      cases hn
    have waits := among winner rfl
    have handed := handed_of_bare sound.linked live among bare
    choose weight' weighs' using exists_weighs sound'.linked sound'.acyclic
    obtain ⟨winners, same, ordered, later⟩ := ih sound' handed.place weighs'
      (by simp [List.length_erase_of_mem waits, hn])
    have waiters : tables.ledger.waiters id = queue.waiting := waiters_of_queue? live
    have distinct : queue.waiting.Nodup := waiters ▸ sound.linked.waiters_nodup id
    -- whoever comes later waited with the winner and has kept its weight
    have behind : ∀ other ∈ winners, other ∈ queue.waiting ∧ other ≠ winner := fun other ho =>
      ((distinct.mem_erase_iff).mp (same.mem_iff.mp ho)).symm
    have kept : ∀ other ∈ winners, weight' other = weight other := by
      intro other ho
      obtain ⟨waits', ne⟩ := behind other ho
      exact (weighs' other).unique (sound.weighs_waiter sound' live among bare waits'
        (fun won => ne (Option.some.inj won).symm) (weighs other))
    refine ⟨winner :: winners, ?_, fun priority => ?_, fun count => ?_⟩
    · exact (same.cons winner).trans (List.perm_cons_erase waits).symm
    · have won := (winner_of_handOver sound priority live weighs ok).1
      refine List.pairwise_cons.mpr ⟨fun other ho => ?_, ?_⟩
      · exact precedes_of_highest sound live won.symm other (behind other ho).1 (behind other ho).2
      · refine (ordered (handed.policy.trans priority)).imp_of_mem fun {a b} ha hb goes => ?_
        exact (handed.precedes_iff (kept a ha) (kept b hb)).mp goes
    · obtain ⟨after, again, place⟩ := later count
      refine ⟨after, ?_, ?_⟩
      · rw [Nat.succ_add]
        exact handOvers_succ ok again
      · rw [place, List.getLast?_cons]
        cases winners.getLast? <;> rfl

/-- Handing a live queue over as often as there are waiters gives each of them one turn, under
priority in the order of the stable sort by what they bring. Whoever hands it over once more finds
nobody, and the queue is left without owner. -/
theorem hand_overs_drain (reachable : tables.Reachable)
    (live : tables.queues.get? id = some queue) :
    ∃ (weight : ThreadId → Int) (winners : List ThreadId),
      (∀ other, tables.ledger.Weighing other ↔ other = weight) ∧
      winners.Perm queue.waiting ∧ winners.Nodup ∧
      (tables.policy = .priority → winners =
        queue.waiting.mergeSort (outweighs (tables.stake weight queue.donation))) ∧
      ∀ count, ∃ after,
        tables.handOvers id (queue.waiting.length + count) =
          .ok (winners.map some ++ List.replicate count none, after) ∧
        after.queues.get? id = some
          { queue with
            owner := if count = 0 then winners.getLast?.or queue.owner else none
            waiting := [] } := by
  have sound := reachable.sound
  choose weight weighs using exists_weighs sound.linked sound.acyclic
  obtain ⟨winners, same, ordered, drained⟩ := turns sound live weighs
  have waiters : tables.ledger.waiters id = queue.waiting := waiters_of_queue? live
  refine ⟨weight, winners, weighing_iff weighs, same, ?_, fun priority => ?_, drained⟩
  · rw [same.nodup_iff, ← waiters]
    exact sound.linked.waiters_nodup id
  · refine eq_mergeSort_of_precedes ?_ same (ordered priority)
    rw [← waiters]
    exact sound.consistent.increasing id

/-- Four waiters, the third with what it is lent through a queue of its own, and one call more. -/
theorem hand_overs_drain_boosted :
    Arrives
      [.newQueue true, .newQueue true, .acquire (.pack 0 0) ⟨1⟩, .setBase ⟨2⟩ 3,
        .enqueue (.pack 0 0) ⟨2⟩, .setBase ⟨3⟩ 5, .enqueue (.pack 0 0) ⟨3⟩,
        .acquire (.pack 0 1) ⟨4⟩, .enqueue (.pack 0 0) ⟨4⟩, .setBase ⟨5⟩ 7,
        .enqueue (.pack 0 1) ⟨5⟩, .setBase ⟨6⟩ 5, .enqueue (.pack 0 0) ⟨6⟩]
      (fresh .priority 1)
      fun tables => ∃ (weight : ThreadId → Int) (after : Tables),
        [⟨2⟩, ⟨3⟩, ⟨4⟩, ⟨6⟩].mergeSort (outweighs (tables.stake weight true)) =
          [⟨4⟩, ⟨3⟩, ⟨6⟩, ⟨2⟩] ∧
        tables.handOvers (.pack 0 0) 5 =
          .ok ([some ⟨4⟩, some ⟨3⟩, some ⟨6⟩, some ⟨2⟩, none], after) ∧
        after.queues.get? (.pack 0 0) = some ⟨.priority, true, none, []⟩ := by
  refine .imp (P := fun tables => tables.policy = .priority ∧
      tables.queues.get? (.pack 0 0) = some ⟨.priority, true, some ⟨1⟩, [⟨2⟩, ⟨3⟩, ⟨4⟩, ⟨6⟩]⟩ ∧
      (tables.handOvers (.pack 0 0) 5).toOption.map (·.1) =
        some [some ⟨4⟩, some ⟨3⟩, some ⟨6⟩, some ⟨2⟩, none])
    (by decide +kernel) fun tables arrives ⟨priority, live, found⟩ => ?_
  obtain ⟨weight, winners, -, -, -, sorted, drained⟩ := hand_overs_drain
    ((Reachable.fresh .priority 1).run arrives) live
  obtain ⟨after, ok, place⟩ := drained 1
  have five : tables.handOvers (.pack 0 0) 5 = .ok (winners.map some ++ [none], after) := ok
  rw [five] at found
  have order : winners.map some = [⟨4⟩, ⟨3⟩, ⟨6⟩, (⟨2⟩ : ThreadId)].map some :=
    List.append_cancel_right (Option.some.inj found)
  obtain rfl := List.map_injective_iff.mpr (Option.some_injective ThreadId) order
  exact ⟨weight, after, (sorted priority).symm, five, place⟩

end Turnstile.Tables
