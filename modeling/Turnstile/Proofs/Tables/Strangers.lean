import Turnstile.Proofs.Tables.HandOver
import Turnstile.Proofs.Tables.Invariants
import Turnstile.Proofs.Tables.Reweighing

/-!
# Who gets a record

A call makes a record for the thread that it names (`Call.thread?`). It deals with others as well,
with waiters, owners and all who lend to them, but in sound tables these have records already. So
a thread that has none stays without until some call names it.

* **One operation**: the `knows_of_` lemmas, one for each. They say that no other thread than the
  one dealt with becomes known, or is forgotten.
* **One call** (`unknown_of_perform`) and **a run** (`unknown_of_run`): a thread that is unknown
  stays so.
* **`asked_of_unknown`**: asked about a thread without a record, the tables answer as for one that
  owns nothing, waits for nothing and has the default weight.
-/

namespace Turnstile.Tables

open Ledger

variable {tables after : Tables} {id : QueueId} {thread stranger : ThreadId} {queue : Queue}

/-- The thread that a call names. -/
def Call.thread? : Call → Option ThreadId
  | enqueue _ thread | acquire _ thread | baseOf thread | setBase thread _ | effective thread
  | forget thread => some thread
  | newQueue _ | closeQueue _ | handOver _ => none

/-! ## Records of others -/

theorem knows_record_of_ne (ne : thread ≠ stranger) (f : ThreadState → ThreadState) :
    (tables.record thread f).knows stranger = tables.knows stranger := by
  simp [knows, record, Directory.contains, Directory.get?_set, ne]

theorem knows_amend (tables : Tables) (thread stranger : ThreadId) (f : ThreadState → ThreadState) :
    (tables.amend thread f).knows stranger = tables.knows stranger := by
  simp only [knows, amend, Directory.contains, Directory.get?_modify]
  split <;> simp

theorem knows_enrol_of_ne (ne : thread ≠ stranger) :
    (tables.enrol thread).knows stranger = tables.knows stranger := by
  unfold enrol
  split
  · rfl
  · exact knows_record_of_ne ne id

theorem knows_of_invalidate (h : tables.invalidate thread = .ok after) (stranger : ThreadId) :
    after.knows stranger = tables.knows stranger :=
  knows_eq_of_bare (bare_of_invalidate h) stranger

theorem knows_of_disown (h : tables.disown thread id = .ok after) (stranger : ThreadId) :
    after.knows stranger = tables.knows stranger :=
  (knows_of_invalidate h stranger).trans (knows_amend tables thread stranger _)

theorem knows_of_vacate (h : tables.vacate id = .ok after) (stranger : ThreadId) :
    after.knows stranger = tables.knows stranger := by
  obtain ⟨queue, -, h⟩ := ok_of_bind h
  dsimp only at h
  split at h
  · exact (knows_of_disown h stranger).trans rfl
  · cases h
    rfl

theorem knows_of_closeQueue (h : tables.closeQueue id = .ok after) (stranger : ThreadId) :
    after.knows stranger = tables.knows stranger := by
  have dropped : ∀ now : Tables, (now.drop id).knows stranger = now.knows stranger := by
    intro now
    unfold drop
    split <;> rfl
  obtain ⟨queue, -, h⟩ := ok_of_bind h
  split at h
  · split at h
    · obtain ⟨disowned, disowns, h⟩ := ok_of_bind h
      cases h
      exact (dropped disowned).trans (knows_of_disown disowns stranger)
    · cases h
      exact dropped tables
  · cases h

theorem knows_of_acquire (h : tables.acquire id thread = .ok after) (ne : thread ≠ stranger) :
    after.knows stranger = tables.knows stranger := by
  obtain ⟨queue, freed, -, -, displaces, walked⟩ := walks_of_acquire h
  rw [knows_of_invalidate walked, knows_record_of_ne ne]
  unfold displace at displaces
  split at displaces
  · split at displaces
    · cases displaces
      rfl
    · exact (knows_of_disown displaces stranger).trans rfl
  · cases displaces
    rfl

theorem knows_of_enqueue (h : tables.enqueue id thread = .ok after) (ne : thread ≠ stranger) :
    after.knows stranger = tables.knows stranger := by
  obtain ⟨queue, can⟩ := canWait_of_enqueue h
  rw [enqueue_eq can] at h
  have joined : (tables.join id thread).knows stranger = tables.knows stranger := by
    simp [join, alter, record, knows, Directory.contains, Directory.get?_set, ne]
  exact (knows_of_invalidate h stranger).trans joined

theorem knows_of_setBase {weight : Int} (h : tables.setBase thread weight = .ok after)
    (ne : thread ≠ stranger) : after.knows stranger = tables.knows stranger :=
  (knows_eq_of_bare (bare_of_setBase h) stranger).trans (knows_record_of_ne ne _)

/-! ## Records of waiters and of those who lend to them -/

namespace Sound

variable (sound : tables.Sound)
include sound

/-- All who lend are known, so that working a weight out makes a record for the thread asked for
only. -/
theorem knows_of_effective {weight : Int} (h : tables.effective thread = .ok (weight, after))
    (ne : thread ≠ stranger) : after.knows stranger = tables.knows stranger := by
  obtain ⟨weight', after', ok, weighed, -⟩ :=
    effective_ok sound.linked sound.acyclic sound.coherent thread
  cases h.symm.trans ok
  exact (knows_eq_of_bare weighed.bare stranger).trans (knows_enrol_of_ne ne)

theorem knows_of_standing {donation : Bool} {weight : Int}
    (h : tables.standing donation thread = .ok (weight, after)) (ne : thread ≠ stranger) :
    after.knows stranger = tables.knows stranger := by
  unfold standing at h
  split at h
  · exact sound.knows_of_effective h ne
  · cases h
    exact knows_enrol_of_ne ne

theorem knows_of_candidates {donation : Bool} {waiting : List ThreadId}
    {candidates : List Candidate} (h : tables.candidates donation waiting = .ok (candidates, after))
    (absent : stranger ∉ waiting) : after.knows stranger = tables.knows stranger := by
  induction waiting generalizing tables candidates after with
  | nil =>
    cases h
    rfl
  | cons first rest ih =>
    rw [List.mem_cons, not_or] at absent
    obtain ⟨ne, absent⟩ := absent
    obtain ⟨stake, weighed, others, stands, follow⟩ := standings_of_candidates h
    choose weight weighs using Tables.exists_weighs sound.linked sound.acyclic
    obtain ⟨next, ok, sound', -, -⟩ := standing_ok sound weighs donation first
    cases stands.symm.trans ok
    exact (ih sound' follow absent).trans (sound.knows_of_standing stands (Ne.symm ne))

theorem knows_of_choose {winner : Option ThreadId} (h : tables.choose queue = .ok (winner, after))
    (absent : stranger ∉ queue.waiting) : after.knows stranger = tables.knows stranger := by
  obtain ⟨candidates, weighed, generator, found, rfl⟩ := candidates_of_choose h
  have same : weighed.knows stranger = tables.knows stranger :=
    sound.knows_of_candidates found absent
  exact same

/-- A hand-over deals with the former owner, the waiters and all who lend to them, and these are
known. -/
theorem unknown_of_handOver {winner : Option ThreadId}
    (h : tables.handOver id = .ok (winner, after)) (unknown : tables.knows stranger = false) :
    after.knows stranger = false := by
  obtain ⟨queue, live⟩ := live_of_handOver h
  have absent : stranger ∉ queue.waiting := fun waits => by
    rw [((sound.mem_waiting_iff live).mp waits).1] at unknown
    cases unknown
  obtain ⟨vacated, vacates, sound', bare⟩ := vacate_ok sound live
  have handed : Handed tables vacated id queue none :=
    handed_of_bare sound.linked live (by simp) bare
  have live' : vacated.queues.get? id = some { queue with owner := none } := handed.place
  obtain ⟨winner', chosen, chooses, waits, -⟩ :=
    choose_ok sound' (sound'.consistent.policy_eq live')
  have spared : chosen.knows stranger = false := by
    rw [sound'.knows_of_choose chooses absent, knows_of_vacate vacates, unknown]
  unfold handOver at h
  rw [vacates] at h
  simp only [bind, Except.bind, queue_eq_ok_iff.mpr live', chooses] at h
  cases winner' with
  | none =>
    cases h
    exact spared
  | some waiter =>
    have ne : waiter ≠ stranger := fun same => absent (same ▸ waits waiter rfl)
    obtain ⟨taken, takes, h⟩ := ok_of_bind h
    cases h
    exact (knows_of_acquire takes ne).trans ((knows_record_of_ne ne _).trans spared)

/-! ## Calls -/

/-- A call makes no record for a thread that it does not name. -/
theorem unknown_of_perform {call : Call} {answer : Answer}
    (h : call.perform tables = .ok (answer, after)) (foreign : call.thread? ≠ some stranger)
    (unknown : tables.knows stranger = false) : after.knows stranger = false := by
  have apart : ∀ {thread}, call.thread? = some thread → thread ≠ stranger :=
    fun names same => foreign (same ▸ names)
  cases call with
  | newQueue donation =>
    cases h
    exact unknown
  | closeQueue id =>
    obtain ⟨closed, ok, he⟩ := ok_of_map h
    cases he
    exact (knows_of_closeQueue ok stranger).trans unknown
  | enqueue id thread =>
    obtain ⟨waiting, ok, he⟩ := ok_of_map h
    cases he
    exact (knows_of_enqueue ok (apart rfl)).trans unknown
  | acquire id thread =>
    obtain ⟨acquired, ok, he⟩ := ok_of_map h
    cases he
    exact (knows_of_acquire ok (apart rfl)).trans unknown
  | handOver id =>
    obtain ⟨⟨winner, handed⟩, ok, he⟩ := ok_of_map h
    cases he
    exact sound.unknown_of_handOver ok unknown
  | baseOf thread =>
    cases h
    exact (knows_enrol_of_ne (apart rfl)).trans unknown
  | setBase thread weight =>
    obtain ⟨weighed, ok, he⟩ := ok_of_map h
    cases he
    exact (knows_of_setBase ok (apart rfl)).trans unknown
  | effective thread =>
    obtain ⟨⟨weight, weighed⟩, ok, he⟩ := ok_of_map h
    cases he
    exact (sound.knows_of_effective ok (apart rfl)).trans unknown
  | forget thread =>
    obtain ⟨left, ok, he⟩ := ok_of_map h
    cases he
    exact ((forget_spares ok).1 stranger (Ne.symm (apart rfl))).trans unknown

/-- A thread without a record has none after any calls that do not name it. -/
theorem unknown_of_run {calls : List Call} (h : run calls tables = .ok after)
    (foreign : ∀ call ∈ calls, call.thread? ≠ some stranger)
    (unknown : tables.knows stranger = false) : after.knows stranger = false := by
  induction calls generalizing tables with
  | nil =>
    cases h
    exact unknown
  | cons call rest ih =>
    obtain ⟨first, others⟩ := List.forall_mem_cons.mp foreign
    rw [run] at h
    cases hp : call.perform tables with
    | error violation =>
      rw [hp] at h
      cases h
    | ok done =>
      obtain ⟨answer, next⟩ := done
      rw [hp] at h
      exact ih (perform_sound sound hp) h others (sound.unknown_of_perform hp first unknown)

/-- A thread without a record is taken for a new one. -/
theorem asked_of_unknown (unknown : tables.knows stranger = false) :
    tables.state stranger = .fresh tables.policy.defaultWeight ∧
      (tables.baseOf stranger).1 = tables.policy.defaultWeight ∧
      ∃ after, tables.effective stranger = .ok (tables.policy.defaultWeight, after) := by
  have new : tables.state stranger = .fresh tables.policy.defaultWeight :=
    state_of_get?_none (by simpa [knows, Directory.contains] using unknown)
  have base : (tables.state stranger).base = tables.policy.defaultWeight := by rw [new]; rfl
  obtain ⟨donors, weight, mem, ok, -, together⟩ := sound.donors_together stranger
  have alone : ∀ lender, ¬ tables.ledger.Lends lender stranger := fun lender lends => by
    have owned : (tables.state stranger).owned ≠ [] := sound.linked.owned_ne_nil lends
    rw [new] at owned
    exact owned rfl
  rw [donors_of_alone mem alone] at together
  have own : tables.policy.Together (fun donor => (tables.state donor).base) {stranger}
      (tables.state stranger).base := Policy.together_singleton sound.consistent.base_legal stranger
  rw [together.unique own, base] at ok
  exact ⟨new, base, ok⟩

end Sound

end Turnstile.Tables
