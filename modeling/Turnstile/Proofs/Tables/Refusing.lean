import Turnstile.Proofs.Tables.Leaving
import Turnstile.Proofs.Tables.Waiting

/-!
# What tables refuse with

Violations of two kinds say that a wake-up went astray: a thread was readied that was not asleep,
or woke without the lock it slept for. All others are **ordinary** (`Violation.ordinary`), and no
operation of the tables fails with anything else.
-/

namespace Turnstile

/-- The violation does not say that a wake-up went astray. -/
def Violation.ordinary : Violation → Bool
  | readiedUnblocked _ => false
  | wokenWithoutLock .. => false
  | _ => true

namespace Tables

variable {tables : Tables} {id : QueueId} {thread : ThreadId} {violation : Violation}

theorem queue_refuses (h : tables.queue id = .error violation) : violation.ordinary = true := by
  unfold Tables.queue at h
  split at h <;> cases h
  rfl

theorem invalidateWithin_refuses {hops : Nat}
    (h : invalidateWithin hops thread tables = .error violation) : violation.ordinary = true := by
  induction hops generalizing thread tables with
  | zero =>
    cases h
    rfl
  | succ hops ih =>
    rw [invalidateWithin] at h
    split at h
    · cases h
    · dsimp only at h
      split at h
      · cases h
      · exact ih h

theorem invalidate_refuses (h : tables.invalidate thread = .error violation) :
    violation.ordinary = true :=
  invalidateWithin_refuses h

theorem enqueue_refuses (h : tables.enqueue id thread = .error violation) :
    violation.ordinary = true := by
  cases hq : tables.queue id with
  | error refused =>
    simp only [enqueue, hq, bind, Except.bind, Except.error.injEq] at h
    exact h ▸ queue_refuses hq
  | ok queue =>
    simp only [enqueue, hq, bind, Except.bind] at h
    split at h
    · cases h
      rfl
    · split at h
      · cases h
        rfl
      · split at h
        · cases h
          rfl
        · exact invalidate_refuses h

theorem displace_refuses {former : Option ThreadId}
    (h : tables.displace id thread former = .error violation) : violation.ordinary = true := by
  cases former with
  | none => cases h
  | some former =>
    rw [displace] at h
    split at h
    · cases h
    · exact invalidate_refuses h

theorem acquire_refuses (h : tables.acquire id thread = .error violation) :
    violation.ordinary = true := by
  cases hq : tables.queue id with
  | error refused =>
    simp only [acquire, hq, bind, Except.bind, Except.error.injEq] at h
    exact h ▸ queue_refuses hq
  | ok queue =>
    simp only [acquire, hq, bind, Except.bind] at h
    split at h
    · cases h
      rfl
    · split at h
      · cases h
        rename_i displaces
        exact displace_refuses displaces
      · exact invalidate_refuses h

theorem closeQueue_refuses (sound : tables.Sound)
    (h : tables.closeQueue id = .error violation) : violation.ordinary = true := by
  cases live : tables.queues.get? id with
  | none =>
    simp only [closeQueue, Tables.queue, live, bind, Except.bind, Except.error.injEq] at h
    exact h ▸ rfl
  | some queue =>
    by_cases nobody : queue.waiting = []
    · obtain ⟨after, ok, -⟩ := closeQueue_ok sound live nobody
      cases ok.symm.trans h
    · rw [closeQueue_eq live, if_neg (by simpa [Queue.isEmpty] using nobody)] at h
      cases h
      rfl

theorem handOver_refuses (sound : tables.Sound)
    (h : tables.handOver id = .error violation) : violation.ordinary = true := by
  cases live : tables.queues.get? id with
  | none =>
    simp only [handOver, vacate, Tables.queue, live, bind, Except.bind, Except.error.injEq] at h
    exact h ▸ rfl
  | some queue =>
    obtain ⟨winner, after, ok, -⟩ := handOver_ok sound live
    cases ok.symm.trans h

end Tables

end Turnstile
