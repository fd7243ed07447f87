import Turnstile.Tables.Donation
import Turnstile.Selection

/-!
# Access to queues

What happens to the tables when queues come and go, threads wait, take over and hand on, change
their weight, and leave.

* **`newQueue`**, **`closeQueue`**: a queue is made without owner or waiters and closed without
  waiters.
* **`enqueue`**, **`acquire`**: a thread joins the waiters, or becomes owner in place of
  whoever was.
* **`handOver`**: the owner gives up the queue and the policy's choice among the waiters
  becomes owner at once, so that nobody can come in between.
* **`setBase`**, **`forget`**: a thread's weight changes; a thread leaves.

Each of them forgets, by `invalidate`, exactly the effective weights that it may have changed.
-/

namespace Turnstile.Tables

/-! ## Making and closing queues -/

/-- Make a queue under the tables' policy. -/
def newQueue (tables : Tables) (donation : Bool) : QueueId × Tables :=
  let (id, queues) := tables.queues.insert (.fresh tables.policy donation)
  (id, { tables with queues })

/-- Take a queue from its former owner's record. -/
def disown (tables : Tables) (owner : ThreadId) (id : QueueId) : Except Violation Tables :=
  (tables.amend owner (·.detach id)).invalidate owner

/-- Empty the slot of a queue. -/
def drop (tables : Tables) (id : QueueId) : Tables :=
  match tables.queues.remove id with
  | some (_, queues) => { tables with queues }
  | none => tables

/-- Close a queue that nobody waits on. An owner that it still has owns it no more. -/
def closeQueue (tables : Tables) (id : QueueId) : Except Violation Tables := do
  let queue ← tables.queue id
  if queue.isEmpty then
    match queue.owner with
    | some owner =>
      let tables ← tables.disown owner id
      return tables.drop id
    | none => return tables.drop id
  else throw (.closesWaitedOn id queue.size)

/-! ## Waiting and owning -/

/-- Write a thread down as the last waiter of a queue, under the next stamp. -/
def join (tables : Tables) (id : QueueId) (thread : ThreadId) : Tables :=
  let stamp := tables.stamp + 1
  (Tables.record { tables with stamp } thread fun state =>
      { state with waitingOn := some id, enqueuedAt := stamp }).alter id fun queue =>
    { queue with waiting := queue.waiting ++ [thread] }

/-- Put a thread at the end of a queue's waiters. -/
def enqueue (tables : Tables) (id : QueueId) (thread : ThreadId) : Except Violation Tables := do
  let queue ← tables.queue id
  if queue.owner = some thread then throw (.waitsOnOwned thread id)
  else if tables.stamp = greatestStamp then throw .arrivalsExhausted
  else
    match (tables.state thread).waitingOn with
    | some other => throw (.waitsTwice thread id other)
    | none => (tables.join id thread).invalidate thread

/-- Take a queue from the record of its former owner, unless that is `thread`. -/
def displace (tables : Tables) (id : QueueId) (thread : ThreadId) :
    (former : Option ThreadId) → Except Violation Tables
  | some former => if former = thread then .ok tables else tables.disown former id
  | none => .ok tables

/-- Make a thread the owner of a queue, in place of the owner it had. -/
def acquire (tables : Tables) (id : QueueId) (thread : ThreadId) : Except Violation Tables := do
  let queue ← tables.queue id
  if thread ∈ queue.waiting then throw (.acquiresWaitedOn thread id)
  else
    let tables := tables.alter id fun queue => { queue with owner := some thread }
    let tables ← tables.displace id thread queue.owner
    (tables.record thread (·.attach id)).invalidate thread

/-! ## Handing over -/

/-- The weight with which a waiter comes into the choice. -/
def standing (tables : Tables) (donation : Bool) (thread : ThreadId) :
    Except Violation (Int × Tables) :=
  if donation then tables.effective thread
  else .ok ((tables.state thread).base, tables.enrol thread)

/-- The waiters as the choice sees them. -/
def candidates (tables : Tables) (donation : Bool) :
    List ThreadId → Except Violation (List Candidate × Tables)
  | [] => .ok ([], tables)
  | thread :: rest => do
    let (weight, tables) ← tables.standing donation thread
    let (others, tables) ← tables.candidates donation rest
    return (⟨thread, weight, (tables.state thread).enqueuedAt⟩ :: others, tables)

/-- The policy's choice among the waiters of a queue. -/
def choose (tables : Tables) (queue : Queue) :
    Except Violation (Option ThreadId × Tables) := do
  let (candidates, tables) ← tables.candidates queue.donation queue.waiting
  match queue.policy with
  | .priority => return ((Candidate.highest candidates).map (·.thread), tables)
  | .lottery =>
    let (index, generator) ← Lottery.draw (candidates.map (·.weight)) tables.generator
    let winner := index.bind fun index => (candidates[index]?).map (·.thread)
    return (winner, { tables with generator })

/-- Leave a queue without owner. -/
def vacate (tables : Tables) (id : QueueId) : Except Violation Tables := do
  let queue ← tables.queue id
  let tables := tables.alter id fun queue => { queue with owner := none }
  match queue.owner with
  | some previous => tables.disown previous id
  | none => return tables

/-- Take a thread from the waiters of a queue. -/
def withdraw (tables : Tables) (id : QueueId) (thread : ThreadId) : Tables :=
  (tables.alter id fun queue => { queue with waiting := queue.waiting.erase thread }).record
    thread fun state => { state with waitingOn := none }

/-- Hand a queue to the policy's choice among its waiters, and say who that is. Without waiters
the queue is left without owner. -/
def handOver (tables : Tables) (id : QueueId) :
    Except Violation (Option ThreadId × Tables) := do
  let tables ← tables.vacate id
  let queue ← tables.queue id
  let (winner, tables) ← tables.choose queue
  match winner with
  | none => return (none, tables)
  | some winner =>
    let tables ← (tables.withdraw id winner).acquire id winner
    return (some winner, tables)

/-! ## Weights -/

/-- The weight that a thread was given. -/
def baseOf (tables : Tables) (thread : ThreadId) : Int × Tables :=
  ((tables.state thread).base, tables.enrol thread)

/-- Give a thread the legal weight nearest to the one asked for. -/
def setBase (tables : Tables) (thread : ThreadId) (weight : Int) : Except Violation Tables :=
  let weight := tables.policy.clamp weight
  if (tables.state thread).base = weight then .ok (tables.enrol thread)
  else (tables.record thread fun state => { state with base := weight }).invalidate thread

/-! ## Leaving -/

/-- Erase a thread's record, and take the thread from the waiters of the queue it waits on. -/
def strike (tables : Tables) (thread : ThreadId) (waitingOn : Option QueueId) : Tables :=
  let tables := { tables with threads := tables.threads.erase thread }
  match waitingOn with
  | some id => tables.alter id fun queue =>
      { queue with waiting := queue.waiting.filter (· ≠ thread) }
  | none => tables

/-- Forget the weights kept for the thread that was lent to, if any was. -/
def invalidateDonee (tables : Tables) : (donee : Option ThreadId) → Except Violation Tables
  | some owner => tables.invalidate owner
  | none => .ok tables

/-- Leave the queues among `ids` that `thread` owns without owner. -/
def release (tables : Tables) (thread : ThreadId) (ids : List QueueId) : Tables :=
  ids.foldl (fun tables id => tables.alter id fun queue =>
    if queue.owner = some thread then { queue with owner := none } else queue) tables

/-- Drop a thread's record. The thread is taken from the waiters of the queue it waits on, and
the queues it owns are left without owner. -/
def forget (tables : Tables) (thread : ThreadId) : Except Violation Tables :=
  match tables.threads.get? thread with
  | none => .ok tables
  | some state => do
    let struck := tables.strike thread state.waitingOn
    let struck ← struck.invalidateDonee (tables.donee? state)
    return struck.release thread state.owned

end Turnstile.Tables
