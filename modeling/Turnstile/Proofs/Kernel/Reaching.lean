import Turnstile.Proofs.Kernel.Settling

/-!
# Reaching under the operations

A script may reach under the operations by which threads meet: make, take, hand over and close
queues, put its thread to sleep, drop any record. `Request.Reach` says what all requests do that a
script may make beside a clock that it leaves alone (`Request.timely`). Left out are waking threads,
lining up threads and handling ticks by hand.

* **Waiting**: threads may sleep then and wait nowhere. But whoever waits is asleep still, and waits
  at one place (`Request.Reach.placed`), so that nobody else has a claim to those who wait there.
* **Sleepers**: only a thread that goes to sleep for some ticks changes who sleeps for the alarm,
  and no call changes that when it goes on (`Request.Reach.sleepers`, `Resumed.letsSleep`).
-/

namespace Turnstile

open Kernel

/-! ## Requests that leave the clock alone -/

/-- Whether a context may make a request where the alarm handles every tick, and only then: it does
not handle ticks or wake threads by hand. The driver does not end itself. -/
def Request.untimed (driver : Bool) : Request → Bool
  | ready _ | alarmTick _ => false
  | finish | joinExit _ => !driver
  | _ => true

/-- Whether a context may make a request, besides, where nobody lines up threads by hand. -/
def Request.timely (driver : Bool) : Request → Bool
  | wait .. => false
  | request => request.untimed driver

/-- What a request does to a scene that may reach under the operations by which threads meet. -/
inductive Request.Reach (room : Prop) (scene : Scene) : Request → Progress → Scene → Prop
  | plain {request : Request} {progress : Progress} {after : Scene}
    (outcome : request.Outcome room scene progress after) (timely : request.untimed false = true) :
    Reach room scene request progress after
  | newQueue {donation : Bool} {id : QueueId} {after : Scene}
    (makes : scene.Makes room donation id after) :
    Reach room scene (.newQueue donation) (.done (.queue id)) after
  | closeQueue {id : QueueId} {queue : Queue} (live : scene.ledger.queue? id = some queue)
    (nobody : queue.waiting = []) :
    Reach room scene (.closeQueue id) (.done .nothing)
      { scene with ledger := scene.ledger.close id }
  | acquire {id : QueueId} {name : ThreadName} {thread : ThreadId} {queue : Queue}
    (live : scene.ledger.queue? id = some queue) (absent : thread ∉ queue.waiting) :
    Reach room scene (.acquire id name) (.done .nothing)
      { scene with ledger := scene.ledger.install id thread }
  /-- The winner is not woken. -/
  | next {id : QueueId} {winner : Option ThreadId} {queue : Queue}
    (live : scene.ledger.queue? id = some queue)
    (waits : ∀ thread, winner = some thread → thread ∈ queue.waiting) :
    Reach room scene (.next id) (.done (.thread winner))
      { scene with ledger := scene.ledger.handOn id winner }
  | exitThread {name : ThreadName} {thread : ThreadId} :
    Reach room scene (.exitThread name) (.done .nothing)
      { scene with ledger := scene.ledger.dismiss thread }
  | sleep {thread : ThreadId} (runs : scene.stage.running = some thread) :
    Reach room scene .sleep (.switched []) { scene with stage := scene.stage.block thread }

/-! ## Who waits where -/

/-- Those who wait are fewer, and nobody is awake who was not. -/
theorem Scene.SettledBut.shrink {scene after : Scene} (placed : scene.Placed)
    (lists : ∀ place, (after.waitlist place).Sublist (scene.waitlist place))
    (asleep : ∀ thread, scene.Asleep thread → after.Asleep thread) : after.Placed where
  nodup place := (placed.nodup place).sublist (lists place)
  apart waits waits' := placed.apart ((lists _).subset waits) ((lists _).subset waits')
  asleep waits := asleep _ (placed.asleep ((lists _).subset waits))
  waits _ off := absurd trivial off

/-- Only queues are different, and fewer wait there. -/
theorem Scene.SettledBut.shrinkQueues {scene : Scene} (placed : scene.Placed) {ledger : Ledger}
    (lists : ∀ id, (ledger.waiters id).Sublist (scene.ledger.waiters id)) :
    Scene.Placed { scene with ledger } := by
  refine placed.shrink (fun place => ?_) fun _ asleep => asleep
  cases place with
  | queue id => exact lists id
  | condition index => exact .refl _
  | alarm => exact .refl _

section

variable {strays : ThreadId → Prop} {room : Prop} {scene after : Scene} {request : Request}
  {progress : Progress}

theorem Request.Reach.shift (reach : request.Reach room scene progress after)
    (settled : scene.SettledBut strays) : scene.stage.Shift progress after.stage := by
  cases reach with
  | plain outcome => exact outcome.shift settled
  | newQueue makes => rcases makes with ⟨-, rfl⟩ | ⟨-, rfl⟩ <;> exact .stays (by simp)
  | closeQueue | acquire | next | exitThread => exact .stays (by simp)
  | sleep runs => exact @Stage.Shift.sleeps scene.stage _ [] _ runs List.nodup_nil (by simp)

theorem Request.Reach.placed (reach : request.Reach room scene progress after)
    (sane : scene.stage.Sane) (placed : scene.Placed) : after.Placed := by
  cases reach with
  | plain outcome => exact outcome.settled sane placed
  | newQueue makes => exact placed.makes makes
  | @closeQueue id =>
    refine placed.shrinkQueues fun other => ?_
    rw [Ledger.waiters_close]
    split
    · exact List.nil_sublist _
    · exact .refl _
  | acquire =>
    refine placed.shrinkQueues fun other => ?_
    rw [Ledger.waiters_install]
  | @next id winner =>
    refine placed.shrinkQueues fun other => ?_
    rw [Ledger.waiters_handOn]
    split
    · rename_i same
      rw [same]
      cases winner with
      | none => exact .refl _
      | some thread => exact List.erase_sublist
    · exact .refl _
  | exitThread =>
    refine placed.shrinkQueues fun other => ?_
    rw [Ledger.waiters_dismiss]
    exact List.filter_sublist
  | sleep runs =>
    refine placed.shrink (fun place => ?_) fun other asleep => ?_
    · cases place <;> exact .refl _
    · exact (sane.blocked_block runs other).mpr (.inr asleep)

theorem Request.Reach.goes (reach : request.Reach room scene progress after)
    (sane : scene.stage.Sane) (placed : scene.Placed) :
    scene.GoesBut (fun _ => True) progress after :=
  have shift := reach.shift placed
  ⟨shift.sane sane, reach.placed sane placed, shift.running, shift.finished_iff sane⟩

/-- The requests that end their callers. -/
theorem Request.Reach.ends (reach : request.Reach room scene .finished after) :
    request = .finish ∨ ∃ index, request = .joinExit index := by
  cases reach with
  | plain outcome => exact outcome.ends

end

/-! ## Who sleeps for the alarm -/

/-- A call that has switched away does not owe the handling of a tick. -/
def Hushed (owed : List Task) : Prop := ∀ tick, Task.wakeDue tick ∉ owed

theorem Hushed.tail {task : Task} {rest : List Task} (hushed : Hushed (task :: rest)) :
    Hushed rest :=
  fun tick h => hushed tick (List.mem_cons_of_mem _ h)

theorem Hushed.append {owed rest : List Task} (hushed : Hushed owed) (others : Hushed rest) :
    Hushed (owed ++ rest) := by
  intro tick h
  exact (List.mem_append.mp h).elim (hushed tick) (others tick)

namespace Scene

/-- The sleepers sleep on, and what is owed does not wake them either. -/
structure LetsSleep (scene : Scene) (progress : Progress) (after : Scene) : Prop where
  sleepers : after.sleepers = scene.sleepers
  owed : ∀ owed, progress = .switched owed → Hushed owed

theorem HandsOn.sleepers {scene after : Scene} {id : QueueId} (hands : scene.HandsOn id after) :
    after.sleepers = scene.sleepers := by
  obtain ⟨queue, winner, -, -, -, rfl⟩ := hands
  rfl

theorem Makes.sleepers {room : Prop} {donation : Bool} {scene after : Scene} {id : QueueId}
    (makes : scene.Makes room donation id after) : after.sleepers = scene.sleepers := by
  rcases makes with ⟨-, rfl⟩ | ⟨-, rfl⟩ <;> rfl

namespace LetsSleep

variable {scene after : Scene} {index : Nat} {progress : Progress}

theorem of_sleepers (same : after.sleepers = scene.sleepers)
    (on : ∀ owed, progress ≠ .switched owed) : scene.LetsSleep progress after :=
  ⟨same, fun owed switched => absurd switched (on owed)⟩

theorem of_switched {owed : List Task} (same : after.sleepers = scene.sleepers)
    (hushed : Hushed owed) : scene.LetsSleep (.switched owed) after :=
  ⟨same, fun _ switched => by cases switched; exact hushed⟩

theorem of_acquires {lock : Lock} (acquires : scene.Acquires lock progress after) :
    scene.LetsSleep progress after := by
  cases acquires with
  | free => exact .of_sleepers rfl (by simp)
  | held => exact .of_switched rfl (by simp [Hushed])

theorem owing (lets : scene.LetsSleep progress after) {rest : List Task} (hushed : Hushed rest) :
    scene.LetsSleep (progress.owing rest) after := by
  cases progress with
  | done | finished => exact .of_sleepers lets.sleepers (by simp [Progress.owing])
  | switched owed => exact .of_switched lets.sleepers ((lets.owed owed rfl).append hushed)

theorem of_waits (waits : scene.Waits index progress after) : scene.LetsSleep progress after := by
  obtain ⟨runs, made, gives⟩ := waits
  exact .of_switched gives.hands.sleepers (by simp [Hushed])

theorem of_waitsWhile {passes : Nat} {predicate : Memory → Bool}
    (waits : scene.WaitsWhile index predicate passes progress after) :
    scene.LetsSleep progress after := by
  cases waits with
  | stop => exact .of_sleepers rfl (by simp)
  | waits holds waits => exact (of_waits waits).owing (by simp [Hushed])

theorem of_callsUp {all : Bool} (calls : scene.CallsUp index all after) :
    scene.LetsSleep (.done .nothing) after := by
  cases calls <;> exact .of_sleepers rfl (by simp)

theorem of_joins (joins : scene.Joins index progress after) : scene.LetsSleep progress after := by
  cases joins with
  | late => exact .of_sleepers rfl (by simp)
  | waits => exact .of_switched rfl (by simp [Hushed])

theorem of_exits (exits : scene.Exits index after) : scene.LetsSleep .finished after := by
  obtain ⟨-, -, hands, -, -⟩ := exits
  exact .of_sleepers hands.sleepers (by simp)

theorem of_offers (offers : scene.Offers progress after) : scene.LetsSleep progress after := by
  cases offers with
  | idle => exact .of_sleepers rfl (by simp)
  | thread => exact .of_switched rfl (by simp [Hushed])

end LetsSleep

end Scene

section

variable {room : Prop} {scene after : Scene} {request : Request} {progress : Progress}

/-- Of the requests that leave the clock alone, one changes who sleeps for the alarm. -/
theorem Request.Reach.sleepers (reach : request.Reach room scene progress after) :
    scene.LetsSleep progress after ∨
      ∃ ticks, request = .alarmWait ticks ∧ scene.Naps ticks progress after := by
  cases reach with
  | plain outcome timely =>
    cases outcome with
    | quiet plain same =>
      obtain ⟨ledger, memory, -, rfl⟩ := same
      exact .inl (.of_sleepers rfl (by simp))
    | exit | finish | condition => exact .inl (.of_sleepers rfl (by simp))
    | lock makes | joinPoint makes => exact .inl (.of_sleepers makes.sleepers (by simp))
    | lockAcquire made acquires => exact .inl (.of_acquires acquires)
    | lockRelease made releases => exact .inl (.of_sleepers releases.hands.sleepers (by simp))
    | conditionWait waits => exact .inl (.of_waits waits)
    | conditionWhile waits => exact .inl (.of_waitsWhile waits)
    | conditionSignal calls | conditionBroadcast calls => exact .inl (.of_callsUp calls)
    | join joins => exact .inl (.of_joins joins)
    | joinExit exits => exact .inl (.of_exits exits)
    | alarmWait naps => exact .inr ⟨_, rfl, naps⟩
    | alarmTick => cases timely
    | yield offers => exact .inl (.of_offers offers)
  | newQueue makes => exact .inl (.of_sleepers makes.sleepers (by simp))
  | closeQueue | acquire | next | exitThread => exact .inl (.of_sleepers rfl (by simp))
  | sleep => exact .inl (.of_switched rfl (by simp [Hushed]))

theorem Request.Reach.owed {owed : List Task}
    (reach : request.Reach room scene (.switched owed) after) :
    Hushed owed := by
  rcases reach.sleepers with lets | ⟨ticks, rfl, naps⟩
  · exact lets.owed owed rfl
  · cases naps with
    | sleeps => simp [Hushed]

/-- A call that goes on changes nobody's sleep, unless it owes that. -/
theorem Resumed.letsSleep {owed : List Task} (resumed : Resumed scene owed progress after)
    (hushed : Hushed owed) : scene.LetsSleep progress after := by
  induction resumed with
  | stop => exact .of_sleepers rfl (by simp)
  | @next scene mid after task rest reply progress first others ih =>
    have ih := ih hushed.tail
    refine ⟨ih.sleepers.trans ?_, ih.owed⟩
    cases first with
    | leave | confirm => rfl
    | acquire acquires => exact (Scene.LetsSleep.of_acquires acquires).sleepers
    | recheck waits => exact (Scene.LetsSleep.of_waitsWhile waits).sleepers
    | @wakeDue tick => exact absurd List.mem_cons_self (hushed tick)
  | @away scene after task rest owed first =>
    have lets : scene.LetsSleep (.switched owed) after := by
      cases first with
      | acquire acquires => exact .of_acquires acquires
      | recheck waits => exact .of_waitsWhile waits
    exact .of_switched lets.sleepers ((lets.owed owed rfl).append hushed.tail)

end

/-! ## What requests do -/

section

variable {allowed : Violation → Prop}
  (usual : ∀ violation : Violation, violation.ordinary = true → allowed violation)
  {kernel : Kernel Uniprocessor} {scene : Scene} {strays : ThreadId → Prop}
  (shows : kernel.Shows scene) (settled : scene.SettledBut strays)
include usual shows

include settled

/-- A request that leaves the clock alone does what is said of it, or fails. -/
theorem reach_ends {driver : Bool} {request : Request} (timely : request.timely driver = true) :
    Ends allowed request.perform kernel
      (request.Reach (kernel.tables.queues.size < 4294967296) scene) := by
  cases orderly : request.orderly driver with
  | true =>
    refine (perform_ends usual shows settled orderly).imp fun _ _ outcome => .plain outcome ?_
    cases request <;> first | rfl | cases timely
  | false =>
    cases request with
    | newQueue donation =>
      exact answering_ends ((newQueue_ends usual shows donation).bind fun _ _ _ makes shows =>
        .pure shows (.newQueue makes))
    | closeQueue id =>
      refine silently_ends ((closeQueue_ends usual shows id).imp ?_)
      rintro _ _ ⟨⟨queue, live, nobody⟩, rfl⟩
      exact .closeQueue live nobody
    | acquire id name =>
      refine silently_ends ((resolve_ends shows name).bind ?_)
      rintro thread scene kernel rfl shows
      refine (acquire_ends usual shows id thread).imp ?_
      rintro _ _ ⟨⟨queue, live, absent⟩, rfl⟩
      exact .acquire live absent
    | next id =>
      refine answering_ends ((nextThread_ends usual shows id).bind ?_)
      rintro winner _ _ ⟨⟨queue, live, waits, -⟩, rfl⟩ shows
      exact .pure shows (.next live waits)
    | exitThread name =>
      refine silently_ends ((resolve_ends shows name).bind ?_)
      rintro thread scene kernel rfl shows
      refine .bracket ((forget_ends usual shows.masked thread).imp ?_)
      rintro _ _ rfl
      exact .exitThread
    | sleep =>
      refine (machineSleep_ends usual shows).bind ?_
      rintro _ _ kernel ⟨thread, runs, rfl⟩ shows
      exact .pure shows (.sleep runs)
    | finish | joinExit => cases orderly.symm.trans timely
    | wait | ready | alarmTick => cases timely
    | _ => cases orderly

end

end Turnstile
