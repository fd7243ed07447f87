import Turnstile.Proofs.Tables.Walk

/-!
# How many queues there are

A queue is counted from its making to its closing, whoever owns it or waits on it: handing it over
(`size_of_handOver`) and dropping a record (`forgets`) leave the count, and closing a queue
lowers it by one (`size_of_closeQueue`). Whoever leaves is unknown afterwards (`forgets`).
-/

namespace Turnstile

namespace Tables

variable {tables after : Tables} {id : QueueId} {thread : ThreadId}

/-- A computation that has come to its end has come through its first part. -/
theorem ok_of_bind {α β : Type} {first : Except Violation α} {rest : α → Except Violation β} {b : β}
    (h : (first >>= rest) = .ok b) : ∃ a, first = .ok a ∧ rest a = .ok b := by
  cases first with
  | error violation => cases h
  | ok a => exact ⟨a, rfl, h⟩

/-! ## Working out weights and forgetting them -/

theorem queues_of_invalidate (h : tables.invalidate thread = .ok after) :
    after.queues = tables.queues :=
  show after.bare.queues = tables.bare.queues from congrArg (·.queues) (bare_of_invalidate h)

theorem queues_of_disown (h : tables.disown thread id = .ok after) :
    after.queues = tables.queues := by
  have same : after.queues = (tables.amend thread (·.detach id)).queues := queues_of_invalidate h
  exact same

@[simp] theorem queues_enrol (tables : Tables) (thread : ThreadId) :
    (tables.enrol thread).queues = tables.queues := by
  unfold enrol
  split <;> rfl

theorem queues_of_pool {weigh : ThreadId → Tables → Except Violation (Int × Tables)}
    (each : ∀ {lender now donated after}, weigh lender now = .ok (donated, after) →
      after.queues = now.queues) {lenders : List (Policy × ThreadId)} {total weight : Int}
    (h : pool weigh lenders total tables = .ok (weight, after)) : after.queues = tables.queues := by
  induction lenders generalizing total tables with
  | nil =>
    cases h
    rfl
  | cons lender rest ih =>
    rw [pool] at h
    split at h
    · cases h
    · rename_i donated next weighed
      exact (ih h).trans (each weighed)

theorem queues_of_weigh {depth : Nat} {weight : Int}
    (h : weigh depth thread tables = .ok (weight, after)) : after.queues = tables.queues := by
  induction depth generalizing thread tables after weight with
  | zero => cases h
  | succ depth ih =>
    rw [weigh] at h
    split at h
    · cases h
      exact queues_enrol tables thread
    · split at h
      · cases h
      · split at h
        · cases h
        · rename_i pooled
          cases h
          exact (queues_of_pool ih pooled).trans (queues_enrol tables thread)

theorem queues_of_standing {donation : Bool} {weight : Int}
    (h : tables.standing donation thread = .ok (weight, after)) : after.queues = tables.queues := by
  unfold standing at h
  split at h
  · exact queues_of_weigh h
  · cases h
    exact queues_enrol tables thread

/-! ## Choosing among waiters -/

/-- Waiters are weighed one after another. -/
theorem standings_of_candidates {donation : Bool} {first : ThreadId} {rest : List ThreadId}
    {candidates : List Candidate}
    (h : tables.candidates donation (first :: rest) = .ok (candidates, after)) :
    ∃ weight weighed others, tables.standing donation first = .ok (weight, weighed) ∧
      weighed.candidates donation rest = .ok (others, after) := by
  rw [Tables.candidates] at h
  obtain ⟨⟨weight, weighed⟩, stands, h⟩ := ok_of_bind h
  obtain ⟨⟨others, found⟩, follow, h⟩ := ok_of_bind h
  cases h
  exact ⟨weight, weighed, others, stands, follow⟩

theorem queues_of_candidates {donation : Bool} {waiting : List ThreadId}
    {candidates : List Candidate}
    (h : tables.candidates donation waiting = .ok (candidates, after)) :
    after.queues = tables.queues := by
  induction waiting generalizing tables candidates after with
  | nil =>
    cases h
    rfl
  | cons first rest ih =>
    obtain ⟨weight, weighed, others, stands, follow⟩ := standings_of_candidates h
    exact (ih follow).trans (queues_of_standing stands)

/-- A choice weighs the waiters and uses the generator at most. -/
theorem candidates_of_choose {queue : Queue} {winner : Option ThreadId}
    (h : tables.choose queue = .ok (winner, after)) : ∃ candidates weighed generator,
      tables.candidates queue.donation queue.waiting = .ok (candidates, weighed) ∧
      after = { weighed with generator } := by
  obtain ⟨⟨candidates, weighed⟩, found, h⟩ := ok_of_bind h
  dsimp only at h
  split at h
  · cases h
    exact ⟨candidates, after, after.generator, found, rfl⟩
  · obtain ⟨⟨index, generator⟩, -, h⟩ := ok_of_bind h
    cases h
    exact ⟨candidates, weighed, generator, found, rfl⟩

theorem queues_of_choose {queue : Queue} {winner : Option ThreadId}
    (h : tables.choose queue = .ok (winner, after)) : after.queues = tables.queues := by
  obtain ⟨candidates, weighed, generator, found, rfl⟩ := candidates_of_choose h
  have same : weighed.queues = tables.queues := queues_of_candidates found
  exact same

/-! ## Counting queues -/

theorem size_alter (tables : Tables) (id : QueueId) (f : Queue → Queue) :
    (tables.alter id f).queues.size = tables.queues.size :=
  QueueTable.size_modify tables.queues id f

theorem size_of_vacate (h : tables.vacate id = .ok after) :
    after.queues.size = tables.queues.size := by
  obtain ⟨queue, -, h⟩ := ok_of_bind h
  dsimp only at h
  split at h
  · rw [queues_of_disown h, size_alter]
  · cases h
    exact size_alter tables id _

theorem queues_of_displace {former : Option ThreadId}
    (h : tables.displace id thread former = .ok after) : after.queues = tables.queues := by
  unfold displace at h
  split at h
  · split at h
    · cases h
      rfl
    · exact queues_of_disown h
  · cases h
    rfl

theorem size_of_acquire (h : tables.acquire id thread = .ok after) :
    after.queues.size = tables.queues.size := by
  obtain ⟨queue, -, h⟩ := ok_of_bind h
  split at h
  · cases h
  · obtain ⟨freed, displaces, h⟩ := ok_of_bind h
    have same : after.queues = (freed.record thread (·.attach id)).queues := queues_of_invalidate h
    rw [same]
    show freed.queues.size = _
    rw [queues_of_displace displaces, size_alter]

theorem size_of_handOver {winner : Option ThreadId}
    (h : tables.handOver id = .ok (winner, after)) : after.queues.size = tables.queues.size := by
  obtain ⟨vacated, vacates, h⟩ := ok_of_bind h
  obtain ⟨queue, -, h⟩ := ok_of_bind h
  obtain ⟨⟨winner, chosen⟩, chooses, h⟩ := ok_of_bind h
  rw [← size_of_vacate vacates, ← queues_of_choose chooses]
  dsimp only at h
  split at h
  · cases h
    rfl
  · obtain ⟨taken, acquires, h⟩ := ok_of_bind h
    cases h
    exact (size_of_acquire acquires).trans (size_alter chosen id _)

theorem size_of_closeQueue (h : tables.closeQueue id = .ok after) :
    after.queues.size + 1 = tables.queues.size := by
  -- closing goes through a live queue, which its owner's record has no part in
  have dropped : ∀ {now : Tables} {queue : Queue}, now.queues.get? id = some queue →
      (now.drop id).queues.size + 1 = now.queues.size := by
    intro now queue live
    obtain ⟨rest, removed⟩ : ∃ rest, now.queues.remove id = some (queue, rest) := by
      simp [QueueTable.remove, live]
    unfold drop
    rw [removed]
    exact QueueTable.size_remove removed
  obtain ⟨queue, found, h⟩ := ok_of_bind h
  have live := queue_eq_ok_iff.mp found
  split at h
  · split at h
    · obtain ⟨disowned, disowns, h⟩ := ok_of_bind h
      cases h
      have same : disowned.queues = tables.queues := queues_of_disown disowns
      rw [← same] at live ⊢
      exact dropped live
    · cases h
      exact dropped live
  · cases h

/-! ## Leaving -/

theorem release_threads (tables : Tables) (thread : ThreadId) (ids : List QueueId) :
    (tables.release thread ids).threads = tables.threads ∧
      (tables.release thread ids).queues.size = tables.queues.size := by
  induction ids generalizing tables with
  | nil => exact ⟨rfl, rfl⟩
  | cons first rest ih =>
    obtain ⟨threads, size⟩ := ih (tables.alter first fun queue =>
      if queue.owner = some thread then { queue with owner := none } else queue)
    exact ⟨threads, size.trans (size_alter tables first _)⟩

theorem strike_threads (tables : Tables) (thread : ThreadId) (waitingOn : Option QueueId) :
    (tables.strike thread waitingOn).threads = tables.threads.erase thread ∧
      (tables.strike thread waitingOn).queues.size = tables.queues.size := by
  unfold strike
  cases waitingOn with
  | none => exact ⟨rfl, rfl⟩
  | some id => exact ⟨rfl, size_alter _ id _⟩

theorem generator_release (tables : Tables) (thread : ThreadId) (ids : List QueueId) :
    (tables.release thread ids).generator = tables.generator := by
  induction ids generalizing tables with
  | nil => rfl
  | cons first rest ih => exact ih _

theorem generator_strike (tables : Tables) (thread : ThreadId) (waitingOn : Option QueueId) :
    (tables.strike thread waitingOn).generator = tables.generator := by
  cases waitingOn <;> rfl

/-- Whoever has a record leaves in three steps, and the second only forgets weights. -/
theorem parts_of_forget {state : ThreadState} (known : tables.threads.get? thread = some state)
    (h : tables.forget thread = .ok after) :
    ∃ walked : Tables, walked.bare = (tables.strike thread state.waitingOn).bare ∧
      after = walked.release thread state.owned := by
  rw [forget, known] at h
  obtain ⟨walked, walks, h⟩ := ok_of_bind h
  cases h
  refine ⟨walked, ?_, rfl⟩
  unfold invalidateDonee at walks
  split at walks
  · exact bare_of_invalidate walks
  · cases walks
    rfl

/-- Whoever leaves has no record any more, and all queues are still there. -/
theorem forgets (h : tables.forget thread = .ok after) :
    after.knows thread = false ∧ after.queues.size = tables.queues.size := by
  cases known : tables.threads.get? thread with
  | none =>
    rw [forget, known] at h
    cases h
    exact ⟨by simp [knows, Directory.contains, known], rfl⟩
  | some state =>
    obtain ⟨walked, same, rfl⟩ := parts_of_forget known h
    obtain ⟨threads, size⟩ := strike_threads tables thread state.waitingOn
    have gone : (tables.strike thread state.waitingOn).knows thread = false := by
      simp [knows, Directory.contains, threads, Directory.get?_erase]
    have queues : walked.queues = (tables.strike thread state.waitingOn).queues :=
      show walked.bare.queues = _ from congrArg (·.queues) same
    obtain ⟨threads', size'⟩ := release_threads walked thread state.owned
    constructor
    · rw [knows, threads']
      exact (knows_eq_of_bare same thread).trans gone
    · rw [size', queues, size]

/-- Whoever leaves takes nobody else's record along and draws nothing. -/
theorem forget_spares (h : tables.forget thread = .ok after) :
    (∀ other, other ≠ thread → after.knows other = tables.knows other) ∧
      after.generator = tables.generator := by
  cases known : tables.threads.get? thread with
  | none =>
    rw [forget, known] at h
    cases h
    exact ⟨fun _ _ => rfl, rfl⟩
  | some state =>
    obtain ⟨walked, same, rfl⟩ := parts_of_forget known h
    refine ⟨fun other ne => ?_, ?_⟩
    · rw [knows, (release_threads walked thread state.owned).1]
      refine (knows_eq_of_bare same other).trans ?_
      rw [knows, (strike_threads tables thread state.waitingOn).1, Directory.contains,
        Directory.get?_erase, if_neg (Ne.symm ne)]
      rfl
    · have drawn : walked.generator = (tables.strike thread state.waitingOn).generator :=
        show walked.bare.generator = _ from congrArg (·.generator) same
      rw [generator_release, drawn, generator_strike]

end Tables

end Turnstile
