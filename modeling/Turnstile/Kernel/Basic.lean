import Turnstile.Config
import Turnstile.SleepQueue
import Turnstile.Tables.Basic

/-!
# Kernels

A `Kernel` is a machine together with everything that threads share on it: the scheduling
tables, one alarm, locks, conditions, join points, and variables.

A call of a thread may give up the processor on its way, so that other threads run before it goes
on. Its `Progress` is one of three:

* it is **done** and answers with a `Reply`;
* it has **switched** away and still owes a list of `Task`s, which are carried out, first to
  last, when the thread holds the processor again;
* it has **finished** its thread and never goes on.

What a call owes is data, so that a state of the system shows where each of its threads stands.
-/

namespace Turnstile

/-- Integers shared by all threads; one that was never written is zero. -/
abbrev Memory := Directory Int Int

/-- The value of a variable. -/
def Memory.read (memory : Memory) (name : Int) : Int := (memory.get? name).getD 0

/-- A sleeping lock. Whoever owns the queue holds the lock. -/
structure Lock where
  queue : QueueId
deriving DecidableEq, Repr, Inhabited

/-- A condition, bound to the lock under which it is used. -/
structure Condition where
  lock : Lock
  /-- The threads waiting to be signalled, in order of arrival. -/
  waiting : List ThreadId
deriving DecidableEq, Repr, Inhabited

/-- The join point of a thread, which owns the queue until it exits. -/
structure Join where
  queue : QueueId
  target : ThreadId
  /-- Whether some thread has joined already. -/
  joined : Bool
  /-- Whether the target has exited. -/
  done : Bool
deriving DecidableEq, Repr, Inhabited

/-- A machine and what the threads on it share. -/
structure Kernel (σ : Type) where
  machine : σ
  config : Config
  tables : Tables
  /-- The threads that sleep by the alarm. -/
  sleepers : SleepQueue
  locks : List Lock
  conditions : List Condition
  joins : List Join
  memory : Memory
  /-- How often calls have masked interrupts. -/
  maskings : Nat

/-- What a call answers. -/
inductive Reply
  | nothing
  | flag (value : Bool)
  | count (value : Nat)
  | number (value : Int)
  | tick (value : Nat)
  | deadline (tick : Option Nat)
  | thread (thread : Option ThreadId)
  | queue (id : QueueId)
  | policy (policy : Policy)
  | config (config : Config)
  | status (status : Option Status)
  | refused (refusal : OutOfRange)
deriving DecidableEq, Repr, Inhabited

/-- What a call that has switched away still has to do. Conditions are named by their place. -/
inductive Task
  /-- Put the interrupt flag back. -/
  | leave (saved : Bool)
  /-- See that the lock slept for has been handed over. -/
  | confirm (lock : Lock)
  /-- Take a lock. -/
  | acquire (lock : Lock)
  /-- Wait on a condition again for as long as a predicate holds, after `passes` tries. -/
  | recheck (condition : Nat) (predicate : Memory → Bool) (passes : Nat)
  /-- Wake the sleepers that are due. -/
  | wakeDue (now : Nat)

/-- How far a call has come. -/
inductive Progress
  | done (reply : Reply)
  | switched (owed : List Task)
  | finished

/-- More is owed by a call that has switched away; one that is over owes nothing. -/
def Progress.owing (progress : Progress) (tasks : List Task) : Progress :=
  match progress with
  | switched owed => switched (owed ++ tasks)
  | done reply => done reply
  | finished => finished

/-- The kernel of a machine on which nothing has happened. -/
def Kernel.fresh {σ : Type} (machine : σ) (config : Config) : Kernel σ :=
  { machine
    config
    tables := .fresh config.policy config.seed
    sleepers := .empty
    locks := []
    conditions := []
    joins := []
    memory := .empty
    maskings := 0 }

end Turnstile
