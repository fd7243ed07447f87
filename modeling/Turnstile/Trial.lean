import Turnstile.Config
import Turnstile.SleepQueue

/-!
# Trials of single parts

Short scripts for the parts that can be tried by themselves, without threads or a kernel: a
generator, a queue of sleepers, a configuration.

* **`XorShift.trial`** draws until a draw fails; what failed stands last.
* **`SleepQueue.trial`** says after each step what the queue then looks like.
* **`Config.trial`** applies changes in order.
-/

namespace Turnstile

namespace XorShift

/-- One use of a generator. -/
inductive Use
  | next
  | draw (upper : UInt64)
deriving DecidableEq, Repr, Inhabited

/-- What one use gives. -/
def use (generator : XorShift) : Use → Except Violation (UInt64 × XorShift)
  | .next => .ok generator.next
  | .draw upper => generator.draw upper

/-- What uses in a row give, up to the first that fails. -/
def trial (generator : XorShift) : List Use → List (Except Violation UInt64)
  | [] => []
  | first :: rest =>
    match generator.use first with
    | .ok (word, generator) => .ok word :: generator.trial rest
    | .error violation => [.error violation]

end XorShift

namespace SleepQueue

/-- One use of a queue of sleepers. -/
inductive Use
  | insert (wakeAt : Nat) (thread : ThreadId)
  | pop (now : Nat)
  | drain (now : Nat)
deriving DecidableEq, Repr, Inhabited

/-- What one use gives. -/
inductive Yield
  | nothing
  | one (thread : Option ThreadId)
  | many (threads : List ThreadId)
deriving DecidableEq, Repr, Inhabited

/-- What a use gave and how it left the queue. -/
structure Outcome where
  result : Yield
  size : Nat
  isEmpty : Bool
  nextDeadline : Option Nat
deriving DecidableEq, Repr, Inhabited

/-- Use the queue once. -/
def use (queue : SleepQueue) : Use → Yield × SleepQueue
  | .insert wakeAt thread => (.nothing, queue.insert wakeAt thread)
  | .pop now =>
    let (thread, queue) := queue.popDue now
    (.one thread, queue)
  | .drain now =>
    let (threads, queue) := queue.drainDue now
    (.many threads, queue)

/-- What uses in a row give. -/
def trial (queue : SleepQueue) : List Use → List Outcome
  | [] => []
  | first :: rest =>
    let (result, queue) := queue.use first
    { result
      size := queue.size
      isEmpty := queue.isEmpty
      nextDeadline := queue.nextDeadline } :: queue.trial rest

end SleepQueue

namespace Config

/-- One change of a configuration. -/
inductive Change
  | policy (policy : Policy)
  | seed (seed : UInt64)
deriving DecidableEq, Repr, Inhabited

/-- The configuration after changes in order. -/
def trial (config : Config) : List Change → Config
  | [] => config
  | .policy value :: rest => (config.withPolicy value).trial rest
  | .seed value :: rest => (config.withSeed value).trial rest

end Config

end Turnstile
