import Turnstile.Proofs.Ledger.Moves

/-!
# The two sides of a ledger

A ledger is **linked** (`Ledger.Linked`) if queues and records agree on who owns what and who
waits where, each list names nobody twice, and no owner waits on its own queue.

Between the two halves of a move the sides disagree; each move as a whole keeps them linked
(`Linked.vacate`, `Linked.install`, `Linked.place`, `Linked.close`, `Linked.join`,
`Linked.withdraw`, `Linked.dismiss`), and so does whatever writes neither side (`Linked.congr`).
-/

namespace Turnstile.Ledger

/-- Ownership and waiting are written down alike in queues and in records. -/
structure Linked (ledger : Ledger) : Prop where
  owned_iff : ∀ thread id,
    id ∈ (ledger.record thread).owned ↔ ledger.owner? id = some thread
  waitingOn_iff : ∀ thread id,
    (ledger.record thread).waitingOn = some id ↔ thread ∈ ledger.waiters id
  owned_nodup : ∀ thread, (ledger.record thread).owned.Nodup
  waiters_nodup : ∀ id, (ledger.waiters id).Nodup
  owner_not_waiting : ∀ id thread, ledger.owner? id = some thread → thread ∉ ledger.waiters id

/-! ## Moves keep ledgers linked -/

namespace Linked

variable {ledger : Ledger} (linked : ledger.Linked) {id : QueueId} {thread : ThreadId}
  {queue : Queue}
include linked

theorem vacate (id : QueueId) : (ledger.vacate id).Linked where
  owned_iff other place := by
    rw [owner?_vacate]
    show place ∈ ((ledger.record other).detach id).owned ↔ _
    rw [ThreadState.mem_owned_detach, linked.owned_iff]
    by_cases h : place = id <;> simp [h]
  waitingOn_iff other place := by
    rw [waiters_vacate]
    exact linked.waitingOn_iff other place
  owned_nodup other := ThreadState.nodup_owned_detach (linked.owned_nodup other)
  waiters_nodup place := by
    rw [waiters_vacate]
    exact linked.waiters_nodup place
  owner_not_waiting place other := by
    rw [owner?_vacate, waiters_vacate]
    by_cases h : place = id
    · simp [h]
    · simpa [h] using linked.owner_not_waiting place other

theorem install (live : ledger.queue? id = some queue) (absent : thread ∉ queue.waiting) :
    (ledger.install id thread).Linked where
  owned_iff other place := by
    rw [owner?_install _ _ _ _ live]
    rw [record_install]
    by_cases ho : thread = other
    · rw [if_pos ho, ThreadState.mem_owned_attach, linked.owned_iff]
      by_cases h : place = id <;> simp [h, ho]
    · rw [if_neg ho, ThreadState.mem_owned_detach, linked.owned_iff]
      by_cases h : place = id <;> simp [h, ho]
  waitingOn_iff other place := by
    rw [waiters_install, waitingOn_install]
    exact linked.waitingOn_iff other place
  owned_nodup other := by
    rw [record_install]
    split
    · exact ThreadState.nodup_owned_attach (linked.owned_nodup other)
    · exact ThreadState.nodup_owned_detach (linked.owned_nodup other)
  waiters_nodup place := by
    rw [waiters_install]
    exact linked.waiters_nodup place
  owner_not_waiting place other := by
    rw [owner?_install _ _ _ _ live, waiters_install]
    by_cases h : place = id
    · subst h
      simp only [if_true, Option.some.injEq]
      rintro rfl
      rwa [waiters_of_queue? live]
    · simpa [h] using linked.owner_not_waiting place other

theorem place (free : ledger.queue? id = none) (unowned : queue.owner = none)
    (nobody : queue.waiting = []) : (ledger.place id queue).Linked where
  owned_iff other place := by
    rw [owner?_place]
    show place ∈ (ledger.record other).owned ↔ _
    rw [linked.owned_iff]
    by_cases h : place = id <;> simp [h, owner?, free, unowned]
  waitingOn_iff other place := by
    rw [waiters_place]
    show (ledger.record other).waitingOn = some place ↔ _
    rw [linked.waitingOn_iff]
    by_cases h : place = id <;> simp [h, waiters, free, nobody]
  owned_nodup := linked.owned_nodup
  waiters_nodup place := by
    rw [waiters_place]
    by_cases h : place = id
    · simp [h, nobody]
    · simpa [h] using linked.waiters_nodup place
  owner_not_waiting place other := by
    rw [owner?_place, waiters_place]
    by_cases h : place = id
    · simp [h, unowned]
    · simpa [h] using linked.owner_not_waiting place other

theorem close (nobody : ledger.waiters id = []) : (ledger.close id).Linked where
  owned_iff other place := by
    rw [owner?_close]
    show place ∈ ((ledger.record other).detach id).owned ↔ _
    rw [ThreadState.mem_owned_detach, linked.owned_iff]
    by_cases h : place = id <;> simp [h]
  waitingOn_iff other place := by
    rw [waiters_close]
    show (ledger.record other).waitingOn = some place ↔ _
    rw [linked.waitingOn_iff]
    by_cases h : place = id <;> simp [h, nobody]
  owned_nodup other := ThreadState.nodup_owned_detach (linked.owned_nodup other)
  waiters_nodup place := by
    rw [waiters_close]
    by_cases h : place = id
    · simp [h]
    · simpa [h] using linked.waiters_nodup place
  owner_not_waiting place other := by
    rw [owner?_close, waiters_close]
    by_cases h : place = id
    · simp [h]
    · simpa [h] using linked.owner_not_waiting place other

/-- A thread that waits for nothing is among no waiters. -/
theorem notMem_waiters (idle : (ledger.record thread).waitingOn = none) (id : QueueId) :
    thread ∉ ledger.waiters id := by
  rw [← linked.waitingOn_iff, idle]
  simp

theorem join (live : ledger.queue? id = some queue) (foreign : queue.owner ≠ some thread)
    (idle : (ledger.record thread).waitingOn = none) : (ledger.join id thread).Linked where
  owned_iff other place := by
    rw [owned_join, owner?_join]
    exact linked.owned_iff other place
  waitingOn_iff other place := by
    rw [waiters_join _ _ _ _ live, record_join]
    by_cases ho : thread = other
    · subst ho
      rw [if_pos rfl]
      by_cases h : place = id
      · simp [h]
      · -- on any other queue it would have waited before
        simp [h, Ne.symm h, linked.notMem_waiters idle]
    · rw [if_neg ho, linked.waitingOn_iff]
      by_cases h : place = id
      · simp [h, Ne.symm ho]
      · simp [h]
  owned_nodup other := by
    rw [owned_join]
    exact linked.owned_nodup other
  waiters_nodup place := by
    rw [waiters_join _ _ _ _ live]
    by_cases h : place = id
    · rw [if_pos h]
      refine List.nodup_append.mpr ⟨linked.waiters_nodup id, by simp, ?_⟩
      rintro a ha b hb rfl
      rw [List.mem_singleton.mp hb] at ha
      exact linked.notMem_waiters idle id ha
    · rw [if_neg h]
      exact linked.waiters_nodup place
  owner_not_waiting place other := by
    rw [owner?_join, waiters_join _ _ _ _ live]
    intro owns
    by_cases h : place = id
    · subst h
      have ho : other ≠ thread := by
        rintro rfl
        rw [owner?_of_queue? live] at owns
        exact foreign owns
      simpa [ho] using linked.owner_not_waiting place other owns
    · simpa [h] using linked.owner_not_waiting place other owns

theorem withdraw (waits : thread ∈ ledger.waiters id) :
    (ledger.withdraw id thread).Linked where
  owned_iff other place := by
    rw [owned_withdraw, owner?_withdraw]
    exact linked.owned_iff other place
  waitingOn_iff other place := by
    rw [waiters_withdraw, record_withdraw]
    by_cases ho : thread = other
    · subst ho
      rw [if_pos rfl]
      by_cases h : place = id
      · simp [h, (linked.waiters_nodup id).mem_erase_iff]
      · -- it waited here, so it waits nowhere else
        have hw : (ledger.record thread).waitingOn = some id :=
          (linked.waitingOn_iff thread id).mpr waits
        rw [if_neg h, ← linked.waitingOn_iff, hw]
        simp [Ne.symm h]
    · rw [if_neg ho, linked.waitingOn_iff]
      by_cases h : place = id
      · rw [if_pos h, h, List.mem_erase_of_ne (Ne.symm ho)]
      · rw [if_neg h]
  owned_nodup other := by
    rw [owned_withdraw]
    exact linked.owned_nodup other
  waiters_nodup place := by
    rw [waiters_withdraw]
    by_cases h : place = id
    · rw [if_pos h]
      exact (linked.waiters_nodup id).erase thread
    · rw [if_neg h]
      exact linked.waiters_nodup place
  owner_not_waiting place other := by
    rw [owner?_withdraw, waiters_withdraw]
    intro owns
    by_cases h : place = id
    · subst h
      rw [if_pos rfl]
      exact fun hm => linked.owner_not_waiting place other owns (List.mem_of_mem_erase hm)
    · rw [if_neg h]
      exact linked.owner_not_waiting place other owns

theorem dismiss (thread : ThreadId) : (ledger.dismiss thread).Linked where
  owned_iff other place := by
    rw [owner?_dismiss, record_dismiss]
    by_cases ho : thread = other
    · subst ho
      rw [if_pos rfl]
      by_cases h : ledger.owner? place = some thread <;> simp [h, ThreadState.fresh]
    · rw [if_neg ho, linked.owned_iff]
      by_cases h : ledger.owner? place = some thread <;> simp [h, ho]
  waitingOn_iff other place := by
    rw [waiters_dismiss, record_dismiss]
    by_cases ho : thread = other
    · simp [ho, ThreadState.fresh]
    · rw [if_neg ho, linked.waitingOn_iff]
      simp [Ne.symm ho]
  owned_nodup other := by
    rw [record_dismiss]
    split
    · exact List.nodup_nil
    · exact linked.owned_nodup other
  waiters_nodup place := by
    rw [waiters_dismiss]
    exact (linked.waiters_nodup place).filter _
  owner_not_waiting place other := by
    rw [owner?_dismiss, waiters_dismiss]
    intro owns hm
    by_cases h : ledger.owner? place = some thread
    · simp [h] at owns
    · rw [if_neg h] at owns
      exact linked.owner_not_waiting place other owns (List.mem_filter.mp hm).1

/-- Nobody's record lists a queue that nobody owns. -/
theorem strip_eq_self (unowned : ledger.owner? id = none) : ledger.strip id = ledger := by
  refine Ledger.ext rfl rfl rfl (funext fun other => ThreadState.detach_of_notMem fun owns => ?_)
  rw [linked.owned_iff, unowned] at owns
  cases owns

/-- Only the owner's record lists a queue. -/
theorem strip_eq_write (owns : ledger.owner? id = some thread) :
    ledger.strip id = ledger.write thread (·.detach id) := by
  refine Ledger.ext rfl rfl rfl (funext fun other => ?_)
  by_cases ho : thread = other
  · exact (if_pos ho).symm
  · have foreign : id ∉ (ledger.record other).owned := by
      rw [linked.owned_iff, owns]
      simpa using ho
    show (ledger.record other).detach id = if thread = other then _ else _
    rw [if_neg ho, ThreadState.detach_of_notMem foreign]

/-- Two ledgers that say the same of owners and waiters are linked together. -/
theorem congr {other : Ledger} (queues : other.queue? = ledger.queue?)
    (owned : ∀ thread, (other.record thread).owned = (ledger.record thread).owned)
    (waitingOn : ∀ thread, (other.record thread).waitingOn = (ledger.record thread).waitingOn) :
    other.Linked where
  owned_iff thread id := by
    rw [owned, linked.owned_iff, owner?, owner?, queues]
  waitingOn_iff thread id := by
    rw [waitingOn, linked.waitingOn_iff, waiters, waiters, queues]
  owned_nodup thread := by
    rw [owned]
    exact linked.owned_nodup thread
  waiters_nodup id := by
    rw [waiters, queues]
    exact linked.waiters_nodup id
  owner_not_waiting id thread := by
    rw [owner?, waiters, queues]
    exact linked.owner_not_waiting id thread

theorem of_bare {other : Ledger} (h : other.bare = ledger.bare) : other.Linked :=
  linked.congr (queue?_of_bare h) (owned_of_bare h) (waitingOn_of_bare h)

/-- Base weights have no part in it. -/
theorem weigh (weight : Int) :
    (ledger.write thread fun state => { state with base := weight }).Linked := by
  refine linked.congr rfl (fun other => ?_) (fun other => ?_)
  · by_cases h : thread = other <;> simp [write, h]
  · by_cases h : thread = other <;> simp [write, h]

end Linked

end Turnstile.Ledger
