import Turnstile.Kernel.Basic
import Turnstile.Tables.Donation

/-!
# Logs

What a script leaves behind: an `Entry` for each operation that came to an end, saying who
performed it, which it was, and how it ended. Entries stand in the order in which operations
ended, not in that in which they began.

* **`Snapshot`** is a look at some threads and queues, taken between operations.
-/

namespace Turnstile

/-- How an operation ended. -/
inductive Result
  | replied (reply : Reply)
  | violated (violation : Violation)
  /-- The caller went to sleep, and nothing will wake it. -/
  | blocked
  /-- The operation ended the caller. -/
  | finished
deriving DecidableEq, Repr, Inhabited

/-- What the tables say of some threads and queues. -/
structure Snapshot where
  /-- Threads with their base and effective weights. -/
  threads : List (ThreadId × Int × Int)
  /-- Queues with their owners and numbers of waiters. -/
  queues : List (QueueId × Option ThreadId × Nat)
deriving DecidableEq, Repr, Inhabited

/-- A look that was asked for, or the violation that came of it. -/
inductive View
  | taken (snapshot : Snapshot)
  | failed (violation : Violation)
deriving DecidableEq, Repr, Inhabited

/-- One line of a log. -/
structure Entry where
  /-- The context that held the processor when the operation began. -/
  who : ThreadId
  name : String
  result : Result
  /-- A look taken after the operation, if one was asked for. -/
  view : Option View
deriving DecidableEq, Repr

/-- An entry without a look. -/
def Entry.plain (who : ThreadId) (name : String) (result : Result) : Entry :=
  { who, name, result, view := none }

namespace Tables

/-- The threads that are known, with their weights. Working out effective weights fills in the
tables' memory of them. -/
def viewThreads (tables : Tables) :
    List ThreadId → Except Violation (List (ThreadId × Int × Int) × Tables)
  | [] => .ok ([], tables)
  | thread :: rest =>
    if tables.knows thread then do
      let base := (tables.state thread).base
      let (weight, tables) ← tables.effective thread
      let (others, tables) ← tables.viewThreads rest
      return ((thread, base, weight) :: others, tables)
    else tables.viewThreads rest

/-- The queues behind some handles. -/
def viewQueues (tables : Tables) :
    List QueueId → Except Violation (List (QueueId × Option ThreadId × Nat))
  | [] => .ok []
  | id :: rest => do
    let queue ← tables.queue id
    let others ← tables.viewQueues rest
    return (id, queue.owner, queue.size) :: others

/-- A look at those of some threads that are known, and at some queues. -/
def view (tables : Tables) (threads : List ThreadId) (queues : List QueueId) :
    Except Violation (Snapshot × Tables) := do
  let (threads, tables) ← tables.viewThreads threads
  let queues ← tables.viewQueues queues
  return ({ threads, queues }, tables)

end Tables

end Turnstile
