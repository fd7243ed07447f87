import Turnstile.Tables.Basic

/-!
# Donation

A thread that waits on a donating queue lends its weight to the queue's owner, and with it all
that is lent to itself. The **effective weight** of a thread is therefore its base weight with
the effective weights of all waiters of all donating queues that it owns (`Policy.donate`).

* **`Tables.effective`** works the weight out once and keeps it in the thread's record, with
  those of all the threads on the way.
* **`Tables.invalidate`** forgets what is kept for a thread and for every thread that it lends
  to, directly or through others. Everything that changes what a thread has to lend ends with
  a call of it.
* **Cycles.** A thread waits on one queue at most and a queue has one owner, so lending runs
  along a forest unless callers wait for one another in a ring. Both walks count their steps
  against the number of known threads: a walk with more steps than threads has come back to
  one of them, and the caller has made a ring.
-/

namespace Turnstile.Tables

/-- The thread that a record's thread lends to: the owner of the queue it waits on, if that
queue donates. -/
def donee? (tables : Tables) (state : ThreadState) : Option ThreadId :=
  match state.waitingOn with
  | none => none
  | some id =>
    match tables.queues.get? id with
    | none => none
    | some queue => if queue.donation then queue.owner else none

/-- The waiters of the donating queues among `ids`, each under the policy of its queue. -/
def lenders (tables : Tables) : List QueueId → Except Violation (List (Policy × ThreadId))
  | [] => .ok []
  | id :: rest =>
    match tables.queue id, tables.lenders rest with
    | .error violation, _ => .error violation
    | .ok _, .error violation => .error violation
    | .ok queue, .ok others =>
      .ok (if queue.donation then queue.waiting.map (queue.policy, ·) ++ others else others)

/-- Keep a weight that has been worked out. -/
def remember (tables : Tables) (thread : ThreadId) (weight : Int) : Tables :=
  tables.record thread fun state => { state with memo := some weight }

/-- Add what each lender gives to `total`, in turn. -/
def pool (weigh : ThreadId → Tables → Except Violation (Int × Tables)) :
    List (Policy × ThreadId) → Int → Tables → Except Violation (Int × Tables)
  | [], total, tables => .ok (total, tables)
  | (policy, lender) :: rest, total, tables =>
    match weigh lender tables with
    | .error violation => .error violation
    | .ok (donated, tables) => pool weigh rest (policy.donate total donated) tables

/-- The effective weight of a thread, where lending goes through fewer than `depth` threads
on the way to it. -/
def weigh : (depth : Nat) → ThreadId → Tables → Except Violation (Int × Tables)
  | 0, thread, _ => .error (.donationCycle thread)
  | depth + 1, thread, tables =>
    let tables := tables.enrol thread
    match (tables.state thread).memo with
    | some weight => .ok (weight, tables)
    | none =>
      match tables.lenders (tables.state thread).owned with
      | .error violation => .error violation
      | .ok lenders =>
        match pool (weigh depth) lenders (tables.state thread).base tables with
        | .error violation => .error violation
        | .ok (weight, tables) => .ok (weight, tables.remember thread weight)

/-- The effective weight of a thread: its own with all that is lent to it. -/
def effective (tables : Tables) (thread : ThreadId) : Except Violation (Int × Tables) :=
  weigh (tables.threads.size + 1) thread tables

/-- Forget the weights kept for a thread and those it lends to, along at most `hops` of
them. -/
def invalidateWithin : (hops : Nat) → ThreadId → Tables → Except Violation Tables
  | 0, thread, _ => .error (.invalidationCycle thread)
  | hops + 1, thread, tables =>
    match tables.threads.get? thread with
    | none => .ok tables
    | some state =>
      let cleared := tables.amend thread fun state => { state with memo := none }
      match tables.donee? state with
      | none => .ok cleared
      | some owner => invalidateWithin hops owner cleared

/-- Forget the weights kept for a thread and for every thread it lends to. -/
def invalidate (tables : Tables) (thread : ThreadId) : Except Violation Tables :=
  invalidateWithin (tables.threads.size + 1) thread tables

end Turnstile.Tables
