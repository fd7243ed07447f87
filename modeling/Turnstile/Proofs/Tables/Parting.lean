import Turnstile.Proofs.Tables.Donation

/-!
# Weights when a thread leaves through its join point

A thread that leaves hands its join point's queue to whoever waits on it, closes the queue
and drops its own record. Whoever waited lends to nobody any more and owns nothing that it
did not own, and the threads that lend to it are those that did: they weigh the same
together (`Ledger.donors_part`, `Tables.Sound.weighs_same`).

While it waits, it lends to the owner, who therefore weighs no less (`Tables.Sound.le_of_lends`).
-/

namespace Turnstile

open Relation

/-- Only the base weights of the threads themselves count. -/
theorem Policy.Together.congr {policy : Policy} {base other : ThreadId → Int}
    {donors : Finset ThreadId} {weight : Int} (h : policy.Together base donors weight)
    (same : ∀ donor ∈ donors, base donor = other donor) : policy.Together other donors weight := by
  cases policy with
  | priority =>
    show IsGreatest (other '' donors) weight
    rw [← Set.image_congr fun donor donates => same donor (Finset.mem_coe.mp donates)]
    exact h
  | lottery =>
    show weight = min Weight.greatest (∑ donor ∈ donors, other donor)
    rw [← Finset.sum_congr rfl same]
    exact h

namespace Ledger

variable {ledger : Ledger} {id other : QueueId} {winner : Option ThreadId}
  {target thread : ThreadId}
  {a b : ThreadId} {queue : Queue}

/-- The queue has been handed on and closed, and its former owner has left. -/
def part (ledger : Ledger) (id : QueueId) (winner : Option ThreadId) (target : ThreadId) : Ledger :=
  ((ledger.handOn id winner).close id).dismiss target

theorem queue?_part (ledger : Ledger) (id : QueueId) (winner : Option ThreadId)
    (target : ThreadId) :
    (ledger.part id winner target).queue? id = none := by
  simp [part, dismiss, close]

theorem owner?_part (live : ledger.queue? id = some queue) :
    (ledger.part id winner target).owner? other =
    if other = id ∨ ledger.owner? other = some target then none else ledger.owner? other := by
  rw [part, owner?_dismiss, owner?_close]
  by_cases here : other = id
  · simp [here]
  · rw [if_neg here, owner?_handOn _ _ _ live, if_neg here]
    by_cases owns : ledger.owner? other = some target <;> simp [here, owns]

theorem waiters_part (ledger : Ledger) (id other : QueueId) (winner : Option ThreadId)
    (target : ThreadId) : (ledger.part id winner target).waiters other =
      if other = id then [] else (ledger.waiters other).filter (· ≠ target) := by
  rw [part, waiters_dismiss, waiters_close]
  by_cases here : other = id
  · simp [here]
  · rw [if_neg here, if_neg here, waiters_handOn, if_neg here]

theorem donates_part (here : other ≠ id) :
    (ledger.part id winner target).donates other = ledger.donates other := by
  rw [part, donates_dismiss, ← donates_handOn ledger id other winner]
  simp [donates, close, strip, here]

theorem base_part {donor : ThreadId} (ne : donor ≠ target) :
    ((ledger.part id winner target).record donor).base = (ledger.record donor).base := by
  rw [part, record_dismiss, if_neg ne.symm]
  exact base_handOn ledger id winner donor

theorem policy_part : (ledger.part id winner target).policy = ledger.policy :=
  policy_handOn ledger id winner

/-- Only edges along the queue and edges of the thread that leaves are gone. -/
theorem lends_part_iff (live : ledger.queue? id = some queue) (linked : ledger.Linked) :
    (ledger.part id winner target).Lends a b ↔
      ledger.Lends a b ∧ a ∉ ledger.waiters id ∧ a ≠ target ∧ b ≠ target := by
  simp only [lends_iff, owner?_part live, waiters_part]
  constructor
  · rintro ⟨place, donation, waits, owns⟩
    split at owns
    · cases owns
    · rename_i kept
      obtain ⟨ne, foreign⟩ := not_or.mp kept
      rw [if_neg ne] at waits
      obtain ⟨waits, other⟩ := List.mem_filter.mp waits
      rw [donates_part ne] at donation
      refine ⟨⟨place, donation, waits, owns⟩, fun here => ne ?_, by simpa using other, ?_⟩
      · -- a thread waits at one place at most
        have first := (linked.waitingOn_iff a place).mpr waits
        exact Option.some.inj (first.symm.trans ((linked.waitingOn_iff a id).mpr here))
      · rintro rfl
        exact foreign owns
  · rintro ⟨⟨place, donation, waits, owns⟩, off, other, foreign⟩
    have ne : place ≠ id := fun same => off (same ▸ waits)
    refine ⟨place, by rwa [donates_part ne], ?_, ?_⟩
    · rw [if_neg ne]
      exact List.mem_filter.mpr ⟨waits, by simpa using other⟩
    · rw [if_neg, owns]
      rintro (same | own)
      · exact ne same
      · rw [owns] at own
        exact foreign (Option.some.inj own)

/-- If nobody but one thread waits on the queue and whoever leaves lends to nobody, that thread's
donors are those that it had. -/
theorem donors_part (live : ledger.queue? id = some queue) (linked : ledger.Linked)
    (acyclic : ledger.Acyclic) (waits : ledger.waiters id = [thread])
    (idle : ∀ other, ¬ ledger.Lends target other) (ne : thread ≠ target) {donor : ThreadId} :
    ReflTransGen (ledger.part id winner target).Lends donor thread ↔
      ReflTransGen ledger.Lends donor thread := by
  constructor
  · exact ReflTransGen.mono (fun a b lends => ((lends_part_iff live linked).mp lends).1) donor
      thread
  · intro path
    -- Every edge on the way is kept: none comes from the thread itself, and none touches
    -- whoever leaves.
    induction path using ReflTransGen.head_induction_on with
    | refl => exact .refl
    | @head donor next lends rest ih =>
      refine .head ((lends_part_iff live linked).mpr ⟨lends, fun here => ?_, ?_, ?_⟩) ih
      · rw [waits, List.mem_singleton] at here
        rw [here] at lends
        exact acyclic thread (.head' lends rest)
      · exact fun same => idle next (same ▸ lends)
      · rintro rfl
        rcases ReflTransGen.cases_head rest with same | ⟨other, lends, -⟩
        · exact ne same.symm
        · exact idle other lends

end Ledger

namespace Tables

open Ledger

variable {tables after : Tables} {thread lender : ThreadId}

/-- The effective weight of a thread is the weight of some threads together, and these are all that
lend to it, with the thread itself. -/
structure WeighsWith (tables : Tables) (thread : ThreadId) (donors : Finset ThreadId)
    (weight : Int) :
    Prop where
  donor_iff : ∀ donor, donor ∈ donors ↔ ReflTransGen tables.ledger.Lends donor thread
  effective : ∃ after, tables.effective thread = .ok (weight, after)
  together : tables.policy.Together (fun donor => (tables.state donor).base) donors weight

theorem Sound.weighsWith (sound : tables.Sound) (thread : ThreadId) :
    ∃ donors weight, tables.WeighsWith thread donors weight := by
  obtain ⟨donors, weight, mem, ok, -, together⟩ := sound.donors_together thread
  exact ⟨donors, weight, mem, ok, together⟩

/-- Whoever is lent to weighs no less than the lender. -/
theorem Sound.le_of_lends (sound : tables.Sound) (lends : tables.ledger.Lends lender thread) :
    ∃ lent weight, (∃ after, tables.effective lender = .ok (lent, after)) ∧
      (∃ after, tables.effective thread = .ok (weight, after)) ∧ lent ≤ weight := by
  obtain ⟨lenders, lent, mem, ok, -, together⟩ := sound.donors_together lender
  obtain ⟨donors, weight, mem', ok', -, together'⟩ := sound.donors_together thread
  refine ⟨lent, weight, ok, ok', ?_⟩
  refine together.mono sound.consistent.base_legal (fun donor donates => ?_) together'
  exact (mem' donor).mpr (((mem donor).mp donates).tail lends)

/-- A thread with the donors that it had, of the weights that they had, weighs what it did. -/
theorem Sound.weighs_same (sound : tables.Sound) (sound' : after.Sound)
    (policy : after.policy = tables.policy)
    (donors : ∀ donor, ReflTransGen after.ledger.Lends donor thread ↔
      ReflTransGen tables.ledger.Lends donor thread)
    (bases : ∀ donor, ReflTransGen tables.ledger.Lends donor thread →
      (after.state donor).base = (tables.state donor).base) :
    ∃ donors weight, tables.WeighsWith thread donors weight ∧
      after.WeighsWith thread donors weight := by
  obtain ⟨found, weight, weighs⟩ := sound.weighsWith thread
  obtain ⟨found', weight', weighs'⟩ := sound'.weighsWith thread
  have same : found' = found := by
    ext donor
    rw [weighs'.donor_iff, weighs.donor_iff, donors]
  subst same
  have together : tables.policy.Together (fun donor => (tables.state donor).base)
    found' weight' := by
    have moved := weighs'.together
    rw [policy] at moved
    exact moved.congr fun donor donates => bases donor ((weighs.donor_iff donor).mp donates)
  obtain rfl := weighs.together.unique together
  exact ⟨found', weight, weighs, weighs'⟩

end Tables

end Turnstile
