import Turnstile.Kernel.Resume

/-!
# Requests

A `Request` is a call written down: which operation, on what. It is the vocabulary that scripts
are made of, and `Request.perform` is what each word of it does. Locks, conditions and join
points are named by the order in which they were made, from zero; threads by number or as the
caller itself.
-/

namespace Turnstile

open Kernel

/-- A thread as a script names it. -/
inductive ThreadName
  | id (thread : ThreadId)
  /-- Whoever performs the request. -/
  | me
deriving DecidableEq, Repr, Inhabited

/-- A call written down. -/
inductive Request
  -- queues
  | newQueue (donation : Bool)
  | closeQueue (queue : QueueId)
  | wait (queue : QueueId) (thread : ThreadName)
  | acquire (queue : QueueId) (thread : ThreadName)
  | next (queue : QueueId)
  | isEmpty (queue : QueueId)
  | owner (queue : QueueId)
  | waiters (queue : QueueId)
  | queueCount
  -- weights
  | weight (thread : ThreadName)
  | effective (thread : ThreadName)
  | setWeight (thread : ThreadName) (weight : Int)
  | trySetWeight (thread : ThreadName) (weight : Int)
  | increase
  | decrease
  -- threads
  | exitThread (thread : ThreadName)
  | finish
  | threadCount
  | knows (thread : ThreadName)
  | current
  -- configuration
  | policy
  | config
  -- locks
  | lock
  | lockAcquire (lock : Nat)
  | lockRelease (lock : Nat)
  | lockHeld (lock : Nat)
  | lockHolder (lock : Nat)
  -- conditions
  | condition (lock : Nat)
  | conditionWait (condition : Nat)
  /-- Wait while a predicate of the variables holds. -/
  | conditionWhile (condition : Nat) (predicate : Memory → Bool)
  | conditionSignal (condition : Nat)
  | conditionBroadcast (condition : Nat)
  | conditionWaiters (condition : Nat)
  -- join points
  | joinPoint (target : ThreadName)
  | join (point : Nat)
  | joinExit (point : Nat)
  | joinDone (point : Nat)
  | joinTarget (point : Nat)
  -- the alarm
  | alarmWait (ticks : Int)
  | alarmTick (now : Nat)
  | alarmPending
  | alarmDeadline
  -- the machine
  | interrupts
  | disable
  | restore (enabled : Bool)
  | maskings
  | yield
  | sleep
  | ready (thread : ThreadName)
  | now
  -- variables
  | add (name : Int) (amount : Int)
deriving Inhabited

namespace Request

/-- Wait while a variable is below a bound. -/
def conditionWaitWhile (condition : Nat) (name bound : Int) : Request :=
  conditionWhile condition fun memory => memory.read name < bound

/-- The word for the operation in logs. -/
def name : Request → String
  | newQueue _ => "new_queue"
  | closeQueue _ => "close_queue"
  | wait .. => "wait"
  | acquire .. => "acquire"
  | next _ => "next"
  | isEmpty _ => "is_empty"
  | owner _ => "owner"
  | waiters _ => "waiters"
  | queueCount => "queue_count"
  | weight _ => "get"
  | effective _ => "eff"
  | setWeight .. => "set"
  | trySetWeight .. => "try_set"
  | increase => "inc"
  | decrease => "dec"
  | exitThread _ => "exit_thread"
  | finish => "finish"
  | threadCount => "thread_count"
  | knows _ => "knows"
  | current => "current"
  | policy => "policy"
  | config => "config"
  | lock => "lock"
  | lockAcquire _ => "lock_acquire"
  | lockRelease _ => "lock_release"
  | lockHeld _ => "lock_held"
  | lockHolder _ => "lock_holder"
  | condition _ => "cond"
  | conditionWait _ => "cond_wait"
  | conditionWhile .. => "cond_wait_while"
  | conditionSignal _ => "cond_signal"
  | conditionBroadcast _ => "cond_broadcast"
  | conditionWaiters _ => "cond_waiters"
  | joinPoint _ => "join_new"
  | join _ => "join"
  | joinExit _ => "join_exit"
  | joinDone _ => "join_done"
  | joinTarget _ => "join_target"
  | alarmWait _ => "alarm_wait"
  | alarmTick _ => "alarm_tick"
  | alarmPending => "alarm_pending"
  | alarmDeadline => "alarm_deadline"
  | interrupts => "irq"
  | disable => "disable"
  | restore _ => "restore"
  | maskings => "brackets"
  | yield => "yield"
  | sleep => "sleep"
  | ready _ => "ready"
  | now => "now"
  | add .. => "add"

variable {σ : Type} [Machine σ]

/-- The thread that a name stands for. -/
def resolve : ThreadName → KernelM σ ThreadId
  | .id thread => pure thread
  | .me => currentThread

/-- A call that answers at once. -/
def answering (body : KernelM σ Reply) : KernelM σ Progress := return .done (← body)

/-- A call that is over at once and has nothing to say. -/
def silently (body : KernelM σ Unit) : KernelM σ Progress := do
  body
  return .done .nothing

/-- Offer the processor to others. -/
def offerProcessor : KernelM σ Progress := do
  if ← machineYield then return .done .nothing else return .switched []

/-- Go to sleep, bracket or no bracket. -/
def goToSleep : KernelM σ Progress := do
  machineSleep
  return .switched []

/-- Add to a variable, and answer its new value. -/
def addTo (name : Int) (amount : Int) : KernelM σ Int := do
  let value := (← get).memory.read name + amount
  modify fun kernel => { kernel with memory := kernel.memory.set name value }
  return value

/-- Carry out a request. -/
def perform : Request → KernelM σ Progress
  | newQueue donation => answering do return .queue (← Scheduler.newQueue donation)
  | closeQueue id => silently (Scheduler.closeQueue id)
  | wait id thread => silently do Scheduler.waitForAccess id (← resolve thread)
  | acquire id thread => silently do Scheduler.acquire id (← resolve thread)
  | next id => answering do return .thread (← Scheduler.nextThread id)
  | isEmpty id => answering do return .flag (← Scheduler.isEmpty id)
  | owner id => answering do return .thread (← Scheduler.owner id)
  | waiters id => answering do return .count (← Scheduler.waiters id)
  | queueCount => answering do return .count (← Scheduler.queueCount)
  | weight thread => answering do return .number (← Scheduler.getPriority (← resolve thread))
  | effective thread =>
    answering do return .number (← Scheduler.getEffectivePriority (← resolve thread))
  | setWeight thread requested =>
    silently do Scheduler.setPriority (← resolve thread) requested
  | trySetWeight thread requested => answering do
    match ← Scheduler.trySetPriority (← resolve thread) requested with
    | .ok () => return .nothing
    | .error refusal => return .refused refusal
  | increase => answering do return .flag (← Scheduler.increasePriority)
  | decrease => answering do return .flag (← Scheduler.decreasePriority)
  | exitThread thread => silently do Scheduler.exitThread (← resolve thread)
  | finish => Scheduler.finish
  | threadCount => answering do return .count (← Scheduler.threadCount)
  | knows thread => answering do return .flag (← Scheduler.knows (← resolve thread))
  | current => answering do return .thread (some (← currentThread))
  | policy => answering do return .policy (← get).config.policy
  | config => answering do return .config (← get).config
  | lock => answering do return .queue (← Lock.create).queue
  | lockAcquire index => do (← Lock.lookup index).acquire
  | lockRelease index => silently do (← Lock.lookup index).release
  | lockHeld index => answering do return .flag (← (← Lock.lookup index).isHeld)
  | lockHolder index => answering do return .thread (← (← Lock.lookup index).holder)
  | condition index => answering do
    return .queue (← Condition.create (← Lock.lookup index)).lock.queue
  | conditionWait index => Condition.wait index
  | conditionWhile index predicate => Condition.waitWhile index predicate 0
  | conditionSignal index => silently (Condition.signal index)
  | conditionBroadcast index => silently (Condition.broadcast index)
  | conditionWaiters index => answering do return .count (← Condition.waiters index)
  | joinPoint target => silently do
    let _ ← Join.create (← resolve target)
  | join index => Join.join index
  | joinExit index => Join.exit index
  | joinDone index => answering do return .flag (← Join.lookup index).done
  | joinTarget index => answering do return .thread (some (← Join.lookup index).target)
  | alarmWait ticks => Alarm.waitUntil ticks
  | alarmTick tick => Alarm.onTick tick
  | alarmPending => answering do return .count (← Alarm.pending)
  | alarmDeadline => answering do return .deadline (← Alarm.nextDeadline)
  | interrupts => answering do return .flag (← Kernel.interrupts)
  | disable => answering do return .flag (← Kernel.mask)
  | restore enabled => silently (Kernel.restore enabled)
  | maskings => answering do return .count (← get).maskings
  | yield => offerProcessor
  | sleep => goToSleep
  | ready thread => silently do machineReady (← resolve thread)
  | now => answering do return .tick (← Kernel.now)
  | add name amount => answering do return .number (← addTo name amount)

end Request

end Turnstile
