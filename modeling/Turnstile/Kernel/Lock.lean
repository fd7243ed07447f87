import Turnstile.Kernel.Scheduling

/-!
# Sleeping locks

A lock is a donating queue whose owner holds the lock. Whoever finds it held waits on the queue
and sleeps, and lends its weight to the holder meanwhile. The holder hands the lock over to the
policy's choice among the waiters: the lock is never free in between, and the chosen thread holds
it before it even runs.
-/

namespace Turnstile.Lock

open Kernel

variable {σ : Type} [Machine σ]

/-- Make a lock that is free. -/
def create : KernelM σ Lock := do
  let lock := { queue := ← Scheduler.newQueue true }
  modify fun kernel => { kernel with locks := kernel.locks ++ [lock] }
  return lock

/-- The lock made in place `index`. -/
def lookup (index : Nat) : KernelM σ Lock := do
  match (← get).locks[index]? with
  | some lock => return lock
  | none => throw (.unknownObject "lock" index)

/-- Who holds the lock. -/
def holder (lock : Lock) : KernelM σ (Option ThreadId) := Scheduler.owner lock.queue

/-- Whether the caller holds the lock. -/
def isHeld (lock : Lock) : KernelM σ Bool := do
  let holder ← Scheduler.owner lock.queue
  let thread ← currentThread
  return holder = some thread

/-- Take the lock, asleep until it is handed over if another thread holds it. -/
def acquire (lock : Lock) : KernelM σ Progress :=
  bracketCall do
    let thread ← currentThread
    let holder ← Scheduler.owner lock.queue
    if holder = some thread then throw (.reacquiresLock thread)
    else if holder = none then
      Scheduler.acquire lock.queue thread
      return .done .nothing
    else
      Scheduler.waitForAccess lock.queue thread
      sleep
      return .switched [.confirm lock]

/-- See that the caller holds the lock that it slept for. -/
def confirm (lock : Lock) : KernelM σ Unit := do
  let holder ← Scheduler.owner lock.queue
  let thread ← currentThread
  if holder = some thread then return () else throw (.wokenWithoutLock thread holder)

/-- Hand the lock over to the best waiter, or leave it free. -/
def release (lock : Lock) : KernelM σ Unit :=
  bracket do
    let thread ← currentThread
    let holder ← Scheduler.owner lock.queue
    if holder = some thread then
      match ← Scheduler.nextThread lock.queue with
      | some next => wake next
      | none => return ()
    else throw (.releasesUnheldLock thread)

end Turnstile.Lock
