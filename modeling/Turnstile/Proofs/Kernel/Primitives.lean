import Turnstile.Proofs.Kernel.Brackets
import Turnstile.Proofs.Kernel.Calls
import Turnstile.Proofs.Kernel.Waitlist

/-!
# What locks, conditions, join points and the alarm do

Each operation by which threads meet, as a relation between the scene before, how far the call
comes, and the scene after.

* **Locks**: `Scene.Acquires` and `Scene.Releases`.
* **Conditions**: `Scene.Waits` and `Scene.WaitsWhile` for those who wait, `Scene.CallsUp` for those
  who signal.
* **Join points**: `Scene.Joins` and `Scene.Exits`.
* **The alarm**: `Scene.Naps` and `Scene.Ticks`.

That the operations do no more (the theorems named `_ends`) is shown on scenes where sleeping
threads wait at one place each: whoever is woken there is asleep.
-/

namespace Turnstile

open Kernel

namespace Scene

/-- A thread takes a lock. It was free and is the caller's now; or another holds it, and the caller
sleeps until it is handed over. -/
inductive Acquires (lock : Lock) (scene : Scene) : Progress → Scene → Prop
  | free {queue : Queue} (live : scene.ledger.queue? lock.queue = some queue)
    (free : queue.owner = none) (absent : scene.current ∉ queue.waiting) :
    Acquires lock scene (.done .nothing)
      { scene with ledger := scene.ledger.install lock.queue scene.current }
  | held {queue : Queue} {thread holder : ThreadId} {saved : Bool}
    (runs : scene.stage.running = some thread)
    (live : scene.ledger.queue? lock.queue = some queue)
    (held : queue.owner = some holder) (other : holder ≠ thread) :
    Acquires lock scene (.switched [.confirm lock, .leave saved]) (scene.park lock.queue thread)

/-- The caller, which holds the lock, hands it over. -/
structure Releases (lock : Lock) (scene after : Scene) : Prop where
  held : scene.ledger.owner? lock.queue = some scene.current
  hands : scene.HandsOn lock.queue after

/-- The thread stands last in the line of a condition, asleep. -/
def lineUp (scene : Scene) (index : Nat) (thread : ThreadId) : Scene :=
  { scene with
    conditions := scene.conditions.modify index fun condition =>
      { condition with waiting := condition.waiting ++ [thread] }
    stage := scene.stage.block thread }

/-- The caller hands over a condition's lock and sleeps in the condition's line. It will take the
lock again. -/
inductive Waits (index : Nat) (scene : Scene) : Progress → Scene → Prop
  | intro {condition : Condition} {thread : ThreadId} {next : Scene} {saved : Bool}
    (runs : scene.stage.running = some thread) (made : scene.conditions[index]? = some condition)
    (gives : scene.Releases condition.lock next) :
    Waits index scene (.switched [.leave saved, .acquire condition.lock])
      (next.lineUp index thread)

/-- The caller waits on a condition if the predicate holds, and then looks at it again. -/
inductive WaitsWhile (index : Nat) (predicate : Memory → Bool) (passes : Nat) (scene : Scene) :
    Progress → Scene → Prop
  | stop (fails : predicate scene.memory = false) :
    WaitsWhile index predicate passes scene (.done (.count (passes + 1))) scene
  | waits {progress : Progress} {after : Scene} (holds : predicate scene.memory = true)
    (waits : scene.Waits index progress after) :
    WaitsWhile index predicate passes scene
      (progress.owing [.recheck index predicate (passes + 1)]) after

/-- The first in the line of a condition are woken, and the others are left in it. -/
def callUp (scene : Scene) (index : Nat) (woken left : List ThreadId) : Scene :=
  { scene with
    conditions := scene.conditions.modify index fun condition => { condition with waiting := left }
    stage := woken.foldl Stage.rouse scene.stage }

/-- Whoever stands first in the line of a condition is woken, or all in it are. -/
inductive CallsUp (index : Nat) (all : Bool) (scene : Scene) : Scene → Prop
  | nobody {condition : Condition} (made : scene.conditions[index]? = some condition)
    (nobody : condition.waiting = []) : CallsUp index all scene scene
  | some {condition : Condition} {woken left : List ThreadId}
    (made : scene.conditions[index]? = some condition) (line : condition.waiting = woken ++ left)
    (first : all = false → woken.length = 1) (everyone : all = true → left = []) :
    CallsUp index all scene (scene.callUp index woken left)

/-- Whoever wakes the first and then all the others has woken all. -/
theorem callsUp_of_rest {index : Nat} {scene after : Scene} {condition : Condition}
    {first : ThreadId} {rest : List ThreadId} (made : scene.conditions[index]? = some condition)
    (line : condition.waiting = first :: rest)
    (others : (scene.callUp index [first] rest).CallsUp index true after) :
    scene.CallsUp index true after := by
  have made' : (scene.callUp index [first] rest).conditions[index]? =
      some { condition with waiting := rest } := by
    simp [callUp, made]
  cases others with
  | @nobody condition' found nobody =>
    cases made'.symm.trans found
    cases nobody
    exact .some made line (by simp) fun _ => rfl
  | @some condition' woken left found line' _ everyone =>
    cases made'.symm.trans found
    obtain rfl : left = [] := everyone rfl
    obtain rfl : rest = woken := line'.trans (List.append_nil woken)
    have twice : (scene.callUp index [first] rest).callUp index rest [] =
        scene.callUp index (first :: rest) [] := by
      simp [callUp, List.modify_modify_eq, Function.comp_def]
    rw [twice]
    exact .some made (by rw [line, List.append_nil]) (by simp) fun _ => rfl

/-- The target of a join point has been joined. -/
def joined (scene : Scene) (index : Nat) : Scene :=
  { scene with joins := scene.joins.modify index fun point => { point with joined := true } }

/-- A thread is the first to join another. If that one has exited already, it goes on; otherwise it
sleeps. -/
inductive Joins (index : Nat) (scene : Scene) : Progress → Scene → Prop
  | late {point : Join} (made : scene.joins[index]? = some point) (past : point.done = true)
    (first : point.joined = false) : Joins index scene (.done .nothing) (scene.joined index)
  | waits {point : Join} {queue : Queue} {thread : ThreadId} {saved : Bool}
    (runs : scene.stage.running = some thread) (made : scene.joins[index]? = some point)
    (on : point.done = false) (live : scene.ledger.queue? point.queue = some queue)
    (first : point.joined = false) :
    Joins index scene (.switched [.leave saved]) ((scene.joined index).park point.queue thread)

/-- The target of a join point hands the queue to whoever has joined it, closes it and leaves. -/
inductive Exits (index : Nat) (scene : Scene) : Scene → Prop
  | intro {point : Join} {queue : Queue} {next : Scene} (made : scene.joins[index]? = some point)
    (target : scene.current = point.target) (hands : scene.HandsOn point.queue next)
    (live : next.ledger.queue? point.queue = some queue) (nobody : queue.waiting = []) :
    Exits index scene
      { next with
        joins := scene.joins.modify index fun point => { point with done := true }
        ledger := (next.ledger.close point.queue).dismiss scene.current }

/-- A thread sleeps for some ticks, or not at all. -/
inductive Naps (ticks : Int) (scene : Scene) : Progress → Scene → Prop
  | never (none : ticks ≤ 0) : Naps ticks scene (.done .nothing) scene
  | sleeps {thread : ThreadId} {saved : Bool} (runs : scene.stage.running = some thread) :
    Naps ticks scene (.switched [.leave saved])
      { scene with
        sleepers :=
          scene.sleepers.insert (min (scene.stage.clock + ticks.toNat) greatestTick) thread
        stage := scene.stage.block thread }

/-- The sleepers that are due have been woken. -/
def wakeDue (scene : Scene) (tick : Nat) : Scene :=
  { scene with
    sleepers := (scene.sleepers.drainDue tick).2
    stage := (scene.sleepers.drainDue tick).1.foldl Stage.rouse scene.stage }

theorem wakeDue_of_none {scene : Scene} {tick : Nat}
    (nobody : (scene.sleepers.popDue tick).1 = none) : scene.wakeDue tick = scene := by
  simp [wakeDue, SleepQueue.drainDue_of_popDue_none nobody]

/-- A tick wakes the sleepers that are due; a thread lets the others run first. -/
inductive Ticks (tick : Nat) (scene : Scene) : Progress → Scene → Prop
  | idle (rests : scene.stage.running = none) :
    Ticks tick scene (.done .nothing) (scene.wakeDue tick)
  | thread {thread : ThreadId} (runs : scene.stage.running = some thread) :
    Ticks tick scene (.switched [.wakeDue tick])
      { scene with stage := scene.stage.requeue thread }

/-- A thread goes behind the others that are ready; the idle context goes on. -/
inductive Offers (scene : Scene) : Progress → Scene → Prop
  | idle (rests : scene.stage.running = none) : Offers scene (.done .nothing) scene
  | thread {thread : ThreadId} (runs : scene.stage.running = some thread) :
    Offers scene (.switched []) { scene with stage := scene.stage.requeue thread }

theorem current_of_running {scene : Scene} {thread : ThreadId}
    (runs : scene.stage.running = some thread) : scene.current = thread := by
  simp [current, Stage.current, runs]

/-- What is written over an entry counts for that entry alone. -/
theorem modify_congr {α : Type} {list : List α} {index : Nat} {a : α} {f g : α → α}
    (made : list[index]? = some a) (same : f a = g a) :
    list.modify index f = list.modify index g := by
  refine List.ext_getElem? fun other => ?_
  simp only [List.getElem?_modify]
  split
  · rename_i here
    rw [← here, made]
    simp [same]
  · rfl

theorem running_handOn (scene : Scene) (id : QueueId) (winner : Option ThreadId) :
    (scene.handOn id winner).stage.running = scene.stage.running := by
  cases winner <;> rfl

theorem current_handOn (scene : Scene) (id : QueueId) (winner : Option ThreadId) :
    (scene.handOn id winner).current = scene.current := by
  cases winner <;> rfl

theorem SettledBut.asleep_of_queue {strays : ThreadId → Prop} {scene : Scene}
    (settled : scene.SettledBut strays) {id : QueueId} {queue : Queue} {thread : ThreadId}
    (live : scene.ledger.queue? id = some queue)
    (waits : thread ∈ queue.waiting) : scene.Asleep thread := by
  rw [← Ledger.waiters_of_queue? live] at waits
  exact settled.asleep_of_waiters waits

theorem waitlist_condition {scene : Scene} {index : Nat} {condition : Condition}
    (made : scene.conditions[index]? = some condition) :
    scene.waitlist (.condition index) = condition.waiting := by
  simp [waitlist, made]

end Scene

namespace Kernel.Shows

variable {kernel : Kernel Uniprocessor} {scene : Scene} (shows : kernel.Shows scene)
include shows

theorem locks (f : List Lock → List Lock) :
    Shows { kernel with locks := f kernel.locks } { scene with locks := f scene.locks } := by
  refine ⟨shows.sound, ?_⟩
  rw [← shows.scene_eq]
  rfl

theorem conditions (f : List Condition → List Condition) :
    Shows { kernel with conditions := f kernel.conditions }
      { scene with conditions := f scene.conditions } := by
  refine ⟨shows.sound, ?_⟩
  rw [← shows.scene_eq]
  rfl

theorem joins (f : List Join → List Join) :
    Shows { kernel with joins := f kernel.joins } { scene with joins := f scene.joins } := by
  refine ⟨shows.sound, ?_⟩
  rw [← shows.scene_eq]
  rfl

theorem sleepers (sleepers : SleepQueue) :
    Shows { kernel with sleepers } { scene with sleepers } := by
  refine ⟨shows.sound, ?_⟩
  rw [← shows.scene_eq]
  rfl

theorem memory (memory : Memory) : Shows { kernel with memory } { scene with memory } := by
  refine ⟨shows.sound, ?_⟩
  rw [← shows.scene_eq]
  rfl

end Kernel.Shows

section

variable {allowed : Violation → Prop}
  (usual : ∀ violation : Violation, violation.ordinary = true → allowed violation)
  {kernel : Kernel Uniprocessor} {scene : Scene} {strays : ThreadId → Prop}

/-- Writing the state, but not the machine, ends with what was written. -/
theorem Ends.write {f : Kernel Uniprocessor → Kernel Uniprocessor} {after : Scene}
    {R : Unit → Scene → Prop} (same : (f kernel).machine = kernel.machine)
    (shows : (f kernel).Shows after) (holds : R () after) : Ends allowed (modify f) kernel R :=
  ⟨congrArg (·.fault) same, after, shows, holds⟩

/-- Writing down what was made, and answering with it. -/
theorem Ends.store {α : Type} {a : α} {f : Kernel Uniprocessor → Kernel Uniprocessor}
    {after : Scene}
    {R : α → Scene → Prop} (same : (f kernel).machine = kernel.machine)
    (shows : (f kernel).Shows after) (holds : R a after) :
    Ends allowed (do modify f; return a) kernel R :=
  (Ends.write (R := fun _ next => next = after) same shows rfl).bind fun _ _ _ h shows =>
    .pure shows (h ▸ holds)

variable (shows : kernel.Shows scene)
include usual shows

/-! ## Looking up -/

theorem found_ends {α : Type} (kind : String) (index : Nat) (entry : Option α) :
    Ends allowed (found kind index entry) kernel fun a after => after = scene ∧ entry = some a := by
  cases entry with
  | some a => exact .pure shows ⟨rfl, rfl⟩
  | none => exact .throw (usual _ rfl)

theorem lockLookup_ends (index : Nat) : Ends allowed (Lock.lookup index) kernel fun lock after =>
    after = scene ∧ scene.locks[index]? = some lock := by
  have locks : kernel.locks = scene.locks := congrArg (·.locks) shows.scene_eq
  rw [Lock.lookup_found, ← locks]
  exact .get (found_ends usual shows "lock" index _)

theorem conditionLookup_ends (index : Nat) :
    Ends allowed (Condition.lookup index) kernel fun condition after =>
      after = scene ∧ scene.conditions[index]? = some condition := by
  have conditions : kernel.conditions = scene.conditions := congrArg (·.conditions) shows.scene_eq
  rw [Condition.lookup_found, ← conditions]
  exact .get (found_ends usual shows "condition" index _)

theorem joinLookup_ends (index : Nat) : Ends allowed (Join.lookup index) kernel fun point after =>
    after = scene ∧ scene.joins[index]? = some point := by
  have joins : kernel.joins = scene.joins := congrArg (·.joins) shows.scene_eq
  rw [Join.lookup_found, ← joins]
  exact .get (found_ends usual shows "join point" index _)

/-! ## Locks -/

theorem lockCreate_ends : Ends allowed Lock.create kernel fun lock after =>
    ∃ next, Scene.Makes (kernel.tables.queues.size < 4294967296) true scene lock.queue next ∧
      after = { next with locks := next.locks ++ [lock] } := by
  refine (newQueue_ends usual shows true).bind fun id next kernel makes shows => ?_
  exact .store rfl (shows.locks (· ++ [⟨id⟩])) ⟨next, makes, rfl⟩

theorem isHeld_ends (lock : Lock) :
    Ends allowed lock.isHeld kernel fun _ after => after = scene := by
  refine (owner_ends usual shows lock.queue).bind ?_
  rintro _ scene kernel ⟨rfl, -⟩ shows
  exact .current shows (.pure shows rfl)

theorem lockAcquire_ends (lock : Lock) :
    Ends allowed lock.acquire kernel (scene.Acquires lock) := by
  refine .bracketCall fun saved => .current shows.masked ?_
  refine (owner_ends usual shows.masked lock.queue).bind ?_
  rintro _ scene kernel ⟨rfl, queue, live, rfl⟩ shows
  split
  · exact .throw (usual _ rfl)
  · rename_i foreign
    split
    · rename_i free
      refine (acquire_ends usual shows _ _).bind ?_
      rintro _ _ kernel ⟨⟨queue', live', absent⟩, rfl⟩ shows
      cases live.symm.trans live'
      exact .pure shows (.free live free absent)
    · rename_i taken
      obtain ⟨holder, held⟩ := Option.ne_none_iff_exists'.mp taken
      refine (waitForAccess_ends usual shows _ _).bind ?_
      rintro _ _ kernel ⟨-, rfl⟩ shows
      refine (sleep_ends usual shows).bind ?_
      rintro _ _ kernel ⟨thread, runs, rfl⟩ shows
      have caller : scene.current = thread := Scene.current_of_running runs
      rw [held, caller] at foreign
      rw [caller] at shows
      exact .pure shows (.held runs live held fun same => foreign (congrArg some same))

/-- The caller holds a lock that it went to sleep for, or the violation that says otherwise is
allowed. -/
theorem confirm_ends (lock : Lock)
    (trusts : scene.ledger.owner? lock.queue = some scene.current ∨
      ∀ thread holder, allowed (.wokenWithoutLock thread holder)) :
    Ends allowed lock.confirm kernel fun _ after =>
      after = scene ∧ scene.ledger.owner? lock.queue = some scene.current := by
  refine (owner_ends usual shows lock.queue).bind ?_
  rintro _ scene kernel ⟨rfl, queue, live, rfl⟩ shows
  refine .current shows ?_
  rw [← Ledger.owner?_of_queue? live]
  split
  · rename_i held
    exact .pure shows ⟨rfl, held⟩
  · rename_i lost
    rcases trusts with held | allows
    · exact absurd held lost
    · exact .throw (allows _ _)

theorem lockRelease_ends (lock : Lock)
    (asleep : ∀ thread ∈ scene.ledger.waiters lock.queue, scene.Asleep thread) :
    Ends allowed lock.release kernel fun _ after => scene.Releases lock after := by
  refine .bracket (.current shows.masked ?_)
  refine (owner_ends usual shows.masked lock.queue).bind ?_
  rintro _ scene kernel ⟨rfl, queue, live, rfl⟩ shows
  split
  · rename_i held
    rw [← Ledger.owner?_of_queue? live] at held
    refine (nextThread_ends usual shows lock.queue).bind ?_
    rintro winner _ kernel ⟨⟨queue, live, waits, nobody⟩, rfl⟩ shows
    cases winner with
    | none => exact .pure shows ⟨held, queue, none, live, waits, nobody, rfl⟩
    | some next =>
      rw [Ledger.waiters_of_queue? live] at asleep
      refine (wake_ends usual shows (asleep next (waits next rfl))).imp ?_
      rintro _ _ rfl
      exact ⟨held, queue, some next, live, waits, nobody, rfl⟩
  · exact .throw (usual _ rfl)

/-! ## Conditions -/

omit usual in
theorem conditionCreate_ends (lock : Lock) :
    Ends allowed (Condition.create lock) kernel fun condition after => condition = ⟨lock, []⟩ ∧
      after = { scene with conditions := scene.conditions ++ [⟨lock, []⟩] } :=
  .store rfl (shows.conditions (· ++ [⟨lock, []⟩])) ⟨rfl, rfl⟩

theorem waitingAt_ends (index : Nat) :
    Ends allowed (Condition.waitingAt index) kernel fun line after => after = scene ∧
      ∃ condition, scene.conditions[index]? = some condition ∧ line = condition.waiting := by
  refine .requireMasked usual ((conditionLookup_ends usual shows index).bind ?_)
  rintro condition scene kernel ⟨rfl, made⟩ shows
  exact .pure shows ⟨rfl, condition, made, rfl⟩

theorem setWaitingAt_ends (index : Nat) (threads : List ThreadId) :
    Ends allowed (Condition.setWaitingAt index threads) kernel fun _ after =>
      after = { scene with
        conditions := scene.conditions.modify index fun condition =>
          { condition with waiting := threads } } := by
  refine .requireMasked usual (.write rfl ?_ rfl)
  exact shows.conditions (·.modify index fun condition => { condition with waiting := threads })

theorem requireHeld_ends (condition : Condition) (operation : String) :
    Ends allowed (Condition.requireHeld condition operation) kernel fun _ after =>
      after = scene := by
  refine (isHeld_ends usual shows condition.lock).bind ?_
  rintro holds scene kernel rfl shows
  cases holds with
  | true => exact .pure shows rfl
  | false => exact .throw (usual _ rfl)

/-- The caller stands in line before it gives the lock up; the order does not show. -/
theorem conditionWait_ends (settled : scene.SettledBut strays) (index : Nat) :
    Ends allowed (Condition.wait index) kernel (scene.Waits index) := by
  refine (conditionLookup_ends usual shows index).bind ?_
  rintro condition scene kernel ⟨rfl, made⟩ shows
  refine (requireHeld_ends usual shows condition _).bind ?_
  rintro _ scene kernel rfl shows
  refine Ends.bind (R := fun progress after => scene.Waits index
    (progress.owing [.acquire condition.lock]) after) ?_ fun progress after kernel waits shows =>
      .pure shows waits
  refine .bracketCall fun saved => .current shows.masked ?_
  refine (waitingAt_ends usual shows.masked index).bind ?_
  rintro _ scene kernel ⟨rfl, condition', made', rfl⟩ shows
  cases made.symm.trans made'
  have line : scene.conditions.modify index
      (fun other => { other with waiting := condition.waiting ++ [scene.current] }) =
    scene.conditions.modify index
      fun other => { other with waiting := other.waiting ++ [scene.current] } :=
    Scene.modify_congr made rfl
  refine (setWaitingAt_ends usual shows index _).bind ?_
  rintro _ _ kernel rfl shows
  rw [line] at shows
  refine (lockRelease_ends usual shows condition.lock fun _ => settled.asleep_of_waiters).bind ?_
  rintro _ _ kernel ⟨held, queue, winner, live, waits, nobody, rfl⟩ shows
  refine (sleep_ends usual shows).bind ?_
  rintro _ _ kernel ⟨thread, runs, rfl⟩ shows
  rw [Scene.running_handOn] at runs
  have runs : scene.stage.running = some thread := runs
  have gives : scene.Releases condition.lock (scene.handOn condition.lock.queue winner) :=
    ⟨held, queue, winner, live, waits, nobody, rfl⟩
  rw [Scene.current_of_running runs] at shows
  exact .pure shows (.intro runs made gives)

theorem waitWhile_ends (settled : scene.SettledBut strays) (index : Nat) (predicate : Memory → Bool)
    (passes : Nat) : Ends allowed (Condition.waitWhile index predicate passes) kernel
      (scene.WaitsWhile index predicate passes) := by
  have memory : kernel.memory = scene.memory := congrArg (·.memory) shows.scene_eq
  refine .get ?_
  rw [memory]
  split
  · rename_i holds
    exact (conditionWait_ends usual shows settled index).bind
      fun progress after kernel waits shows =>
      .pure shows (.waits holds waits)
  · rename_i fails
    exact .pure shows (.stop (Bool.eq_false_iff.mpr fails))

/-- Whoever holds the lock of a condition may look at its line, and go on with interrupts masked. -/
theorem heldLine_ends {α : Type} {operation : String}
    {rest : List ThreadId → KernelM Uniprocessor α}
    {R : α → Scene → Prop} (index : Nat)
    (next : ∀ condition kernel, scene.conditions[index]? = some condition → kernel.Shows scene →
      Ends allowed (rest condition.waiting) kernel R) :
    Ends allowed (do
      Condition.requireHeld (← Condition.lookup index) operation
      bracket (Condition.waitingAt index >>= rest)) kernel R := by
  refine (conditionLookup_ends usual shows index).bind ?_
  rintro condition scene kernel ⟨rfl, -⟩ shows
  refine (requireHeld_ends usual shows condition _).bind ?_
  rintro _ scene kernel rfl shows
  refine .bracket ((waitingAt_ends usual shows.masked index).bind ?_)
  rintro _ scene kernel ⟨rfl, condition, made, rfl⟩ shows
  exact next condition kernel made shows

theorem signal_ends (settled : scene.SettledBut strays) (index : Nat) :
    Ends allowed (Condition.signal index) kernel fun _ after =>
      scene.CallsUp index false after := by
  refine heldLine_ends usual shows index fun condition kernel made shows => ?_
  split
  · rename_i nobody
    exact .pure shows (.nobody made nobody)
  · rename_i first rest line
    have waits : first ∈ scene.waitlist (.condition index) := by
      simp [Scene.waitlist_condition made, line]
    refine (setWaitingAt_ends usual shows index rest).bind ?_
    rintro _ _ kernel rfl shows
    refine (wake_ends usual shows (settled.asleep waits)).imp ?_
    rintro _ _ rfl
    have line : condition.waiting = [first] ++ rest := line
    exact .some made line (fun _ => rfl) (by simp)

/-- Those in a line are all different and asleep, and can be woken one after another. -/
theorem wakeLine_ends {index : Nat} {condition : Condition}
    (made : scene.conditions[index]? = some condition) (distinct : condition.waiting.Nodup)
    (asleep : ∀ thread ∈ condition.waiting, scene.stage.status thread = some .blocked) :
    Ends allowed (Condition.wakeLine index condition.waiting) kernel fun _ after =>
      scene.CallsUp index true after := by
  generalize line : condition.waiting = threads at distinct asleep ⊢
  induction threads generalizing kernel scene condition with
  | nil => exact .pure shows (.nobody made line)
  | cons first rest ih =>
    refine (setWaitingAt_ends usual shows index rest).bind ?_
    rintro _ _ kernel rfl shows
    refine (wake_ends usual shows (asleep first List.mem_cons_self)).bind ?_
    rintro _ _ kernel rfl shows
    have left : (scene.callUp index [first] rest).conditions[index]? =
        some { condition with waiting := rest } := by
      simp [Scene.callUp, made]
    exact (ih shows left rfl distinct.tail (Stage.asleep_rouse distinct asleep)).imp
      fun _ after calls => Scene.callsUp_of_rest made line calls

theorem broadcast_ends (settled : scene.SettledBut strays) (index : Nat) :
    Ends allowed (Condition.broadcast index) kernel fun _ after =>
      scene.CallsUp index true after := by
  refine heldLine_ends usual shows index fun condition kernel made shows => ?_
  have line := Scene.waitlist_condition made
  refine wakeLine_ends usual shows made (line ▸ settled.nodup (.condition index))
    fun thread waits => ?_
  rw [← line] at waits
  exact settled.asleep waits

/-! ## Join points -/

theorem joinCreate_ends (target : ThreadId) :
    Ends allowed (Join.create target) kernel fun point after =>
      ∃ next queue, point = ⟨point.queue, target, false, false⟩ ∧
        Scene.Makes (kernel.tables.queues.size < 4294967296) true scene point.queue next ∧
        next.ledger.queue? point.queue = some queue ∧ target ∉ queue.waiting ∧
        after = { next with
          ledger := next.ledger.install point.queue target
          joins := next.joins ++ [point] } := by
  refine (newQueue_ends usual shows true).bind fun id next kernel makes shows => ?_
  refine (Ends.bracket (acquire_ends usual shows.masked id target)).bind ?_
  rintro _ _ kernel ⟨⟨queue, live, absent⟩, rfl⟩ shows
  exact .store rfl (shows.joins (· ++ [⟨id, target, false, false⟩]))
    ⟨next, queue, rfl, makes, live, absent, rfl⟩

omit usual in
theorem amend_ends (index : Nat) (f : Join → Join) :
    Ends allowed (Join.amend index f) kernel fun _ after =>
      after = { scene with joins := scene.joins.modify index f } :=
  .write rfl (shows.joins (·.modify index f)) rfl

theorem join_ends (index : Nat) :
    Ends allowed (Join.join index) kernel (scene.Joins index) := by
  refine (joinLookup_ends usual shows index).bind ?_
  rintro point scene kernel ⟨rfl, made⟩ shows
  refine .current shows ?_
  split
  · exact .throw (usual _ rfl)
  split
  · exact .throw (usual _ rfl)
  rename_i first
  have first : point.joined = false := Bool.eq_false_iff.mpr first
  refine (amend_ends shows index _).bind ?_
  rintro _ _ kernel rfl shows
  refine .bracketCall fun saved => ?_
  refine (joinLookup_ends usual shows.masked index).bind ?_
  rintro point' _ kernel ⟨rfl, made'⟩ shows
  have same : point'.done = point.done := by
    simp only [List.getElem?_modify, made] at made'
    simp at made'
    rw [← made']
  split
  · rename_i past
    exact .pure shows (.late made (same ▸ past) first)
  · rename_i on
    refine (waitForAccess_ends usual shows _ _).bind ?_
    rintro _ _ kernel ⟨⟨queue, live, -⟩, rfl⟩ shows
    refine (sleep_ends usual shows).bind ?_
    rintro _ _ kernel ⟨thread, runs, rfl⟩ shows
    have runs : scene.stage.running = some thread := runs
    rw [Scene.current_of_running runs] at shows
    exact .pure shows (.waits runs made (same ▸ Bool.eq_false_iff.mpr on) live first)

theorem joinExit_ends (settled : scene.SettledBut strays) (index : Nat) :
    Ends allowed (Join.exit index) kernel fun progress after =>
      progress = .finished ∧ scene.Exits index after := by
  refine (joinLookup_ends usual shows index).bind ?_
  rintro point scene kernel ⟨rfl, made⟩ shows
  refine .current shows ?_
  split
  · rename_i target
    refine .bracketCall fun saved => (amend_ends shows.masked index _).bind ?_
    rintro _ _ kernel rfl shows
    refine (nextThread_ends usual shows point.queue).bind ?_
    rintro winner _ kernel ⟨⟨queue, live, waits, nobody⟩, rfl⟩ shows
    have hands : scene.HandsOn point.queue (scene.handOn point.queue winner) :=
      ⟨queue, winner, live, waits, nobody, rfl⟩
    have leaves : ∀ kernel : Kernel Uniprocessor,
        kernel.Shows { scene.handOn point.queue winner with
          joins := scene.joins.modify index fun point => { point with done := true } } →
        Ends allowed (do Scheduler.closeQueue point.queue; Scheduler.finish) kernel
          fun progress after =>
            progress.owing [.leave saved] = .finished ∧ scene.Exits index after := by
      intro kernel shows
      refine (closeQueue_ends usual shows point.queue).bind ?_
      rintro _ _ kernel ⟨⟨queue, live, nobody⟩, rfl⟩ shows
      refine (finish_ends usual shows).imp ?_
      rintro _ _ ⟨rfl, rfl⟩
      have exits := Scene.Exits.intro made target hands live nobody
      rw [← Scene.current_handOn scene point.queue winner] at exits
      exact ⟨rfl, exits⟩
    cases winner with
    | none => exact leaves kernel shows
    | some joiner =>
      have asleep : scene.Asleep joiner := settled.asleep_of_queue live (waits joiner rfl)
      refine (wake_ends usual shows asleep).bind ?_
      rintro _ _ kernel rfl shows
      exact leaves kernel shows
  · exact .throw (usual _ rfl)

/-! ## The alarm and the processor -/

theorem sleepers_ends : Ends allowed Alarm.sleepers kernel fun sleepers after =>
    after = scene ∧ sleepers = scene.sleepers :=
  .requireMasked usual (.get (.pure shows ⟨rfl, congrArg (·.sleepers) shows.scene_eq⟩))

theorem setSleepers_ends (sleepers : SleepQueue) :
    Ends allowed (Alarm.setSleepers sleepers) kernel fun _ after =>
      after = { scene with sleepers } :=
  .requireMasked usual (.write rfl (shows.sleepers sleepers) rfl)

theorem waitUntil_ends (ticks : Int) :
    Ends allowed (Alarm.waitUntil ticks) kernel (scene.Naps ticks) := by
  unfold Alarm.waitUntil
  split
  · rename_i none
    exact .pure shows (.never none)
  · refine .bracketCall fun saved => .current shows.masked ?_
    have clock : Machine.now kernel.masked.machine = scene.stage.clock :=
      congrArg (·.clock) shows.masked.stage
    refine Ends.bind (R := fun time after => after = scene ∧ time = scene.stage.clock)
      (.of_ok rfl shows.masked rfl ⟨rfl, clock⟩) ?_
    rintro _ scene kernel ⟨rfl, rfl⟩ shows
    refine (sleepers_ends usual shows).bind ?_
    rintro _ scene kernel ⟨rfl, rfl⟩ shows
    refine (setSleepers_ends usual shows _).bind ?_
    rintro _ _ kernel rfl shows
    refine (sleep_ends usual shows).bind ?_
    rintro _ _ kernel ⟨thread, runs, rfl⟩ shows
    have runs : scene.stage.running = some thread := runs
    rw [Scene.current_of_running runs] at shows
    exact .pure shows (.sleeps runs)

/-- Sleepers who are due are woken one after another, down to whoever is not due. -/
theorem wakeNext_ends {tick bound : Nat} (enough : scene.sleepers.size ≤ bound)
    (distinct : (scene.sleepers.drainDue tick).1.Nodup)
    (asleep : ∀ thread ∈ (scene.sleepers.drainDue tick).1,
      scene.stage.status thread = some .blocked) :
    Ends allowed (Alarm.wakeNext tick bound) kernel fun _ after => after = scene.wakeDue tick := by
  -- Each turn takes the first of those who would be drained, and leaves one sleeper less.
  induction bound generalizing kernel scene with
  | zero =>
    refine .pure shows (Scene.wakeDue_of_none ?_).symm
    cases first : (scene.sleepers.popDue tick).1 with
    | none => rfl
    | some thread =>
      have less := SleepQueue.size_of_popDue_some first
      omega
  | succ bound ih =>
    refine (sleepers_ends usual shows).bind ?_
    rintro _ scene kernel ⟨rfl, rfl⟩ shows
    split
    · rename_i later pops
      exact .pure shows (Scene.wakeDue_of_none (by rw [pops])).symm
    · rename_i thread later pops
      have first : (scene.sleepers.popDue tick).1 = some thread := by rw [pops]
      have drains := SleepQueue.drainDue_of_popDue_some first
      have less := SleepQueue.size_of_popDue_some first
      simp only [pops] at drains less
      have enough : later.size ≤ bound := by omega
      rw [drains] at distinct asleep
      refine (setSleepers_ends usual shows later).bind ?_
      rintro _ _ kernel rfl shows
      refine (wake_ends usual shows (asleep thread List.mem_cons_self)).bind ?_
      rintro _ _ kernel rfl shows
      have same : Scene.wakeDue
          { scene with sleepers := later, stage := scene.stage.rouse thread } tick =
          scene.wakeDue tick := by
        simp [Scene.wakeDue, drains]
      rw [← same]
      exact ih shows enough distinct.tail (Stage.asleep_rouse distinct asleep)

theorem wakeDue_ends (settled : scene.SettledBut strays) (tick : Nat) :
    Ends allowed (Alarm.wakeDue tick) kernel fun _ after => after = scene.wakeDue tick := by
  refine .bracket ((sleepers_ends usual shows.masked).bind ?_)
  rintro _ scene kernel ⟨rfl, rfl⟩ shows
  have due : (scene.sleepers.drainDue tick).1.Sublist (scene.waitlist .alarm) :=
    (List.takeWhile_sublist _).map _
  exact wakeNext_ends usual shows (Nat.le_refl _) ((settled.nodup .alarm).sublist due)
    fun thread waits => settled.asleep (due.subset waits)

theorem onTick_ends (settled : scene.SettledBut strays) (tick : Nat) :
    Ends allowed (Alarm.onTick tick) kernel (scene.Ticks tick) := by
  refine (machineYield_ends shows).bind ?_
  rintro _ after kernel (⟨rfl, rests, rfl⟩ | ⟨thread, rfl, runs, rfl⟩) shows
  · refine (wakeDue_ends usual shows settled tick).bind ?_
    rintro _ _ kernel rfl shows
    exact .pure shows (.idle rests)
  · exact .pure shows (.thread runs)

omit usual in
theorem offerProcessor_ends :
    Ends allowed Request.offerProcessor kernel scene.Offers := by
  refine (machineYield_ends shows).bind ?_
  rintro _ after kernel (⟨rfl, rests, rfl⟩ | ⟨thread, rfl, runs, rfl⟩) shows
  · exact .pure shows (.idle rests)
  · exact .pure shows (.thread runs)

end

end Turnstile
