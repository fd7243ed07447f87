import Turnstile.Proofs.Kernel.Primitives

/-!
# What requests do

`Request.Outcome` says of each request what it does to a scene and how far it comes. Most requests
only look, or deal with weights, flags and variables: they are quiet (`Request.quiet`), and nobody
else notices.

Requests that reach under the operations by which threads meet are left out: raw queues, raw sleep
and wake-up, and dropping the record of another thread. The rest is orderly (`Request.orderly`), and
does what its outcome says or fails (`perform_ends`).
-/

namespace Turnstile

open Kernel

/-! ## Quiet requests -/

/-- Whether a request only looks, or deals with weights, flags and variables. -/
def Request.quiet : Request → Bool
  | isEmpty _ | owner _ | waiters _ | queueCount => true
  | weight _ | effective _ | setWeight .. | trySetWeight .. | increase | decrease => true
  | threadCount | knows _ | current | policy | config => true
  | lockHeld _ | lockHolder _ | conditionWaiters _ | joinDone _ | joinTarget _ => true
  | alarmPending | alarmDeadline | interrupts | disable | restore _ | maskings | now => true
  | add .. => true
  | _ => false

section

variable {allowed : Violation → Prop}
  (usual : ∀ violation : Violation, violation.ordinary = true → allowed violation)
  {kernel : Kernel Uniprocessor} {scene : Scene} {α : Type}

theorem answering_ends {body : KernelM Uniprocessor Reply} {R : Progress → Scene → Prop}
    (h : Ends allowed body kernel fun reply after => R (.done reply) after) :
    Ends allowed (Request.answering body) kernel R :=
  h.bind fun _ _ _ holds shows => .pure shows holds

theorem silently_ends {body : KernelM Uniprocessor Unit} {R : Progress → Scene → Prop}
    (h : Ends allowed body kernel fun _ after => R (.done .nothing) after) :
    Ends allowed (Request.silently body) kernel R :=
  h.bind fun _ _ _ holds shows => .pure shows holds

theorem Ends.still {computation : KernelM Uniprocessor α}
    (h : Ends allowed computation kernel fun _ after => after = scene) :
    Ends allowed computation kernel fun _ after => scene.Quiet after :=
  h.imp fun _ _ same => same ▸ .refl scene

/-- An answer that is put into words is the answer of a quiet call. -/
theorem Ends.quietly {computation : KernelM Uniprocessor α} {f : α → Reply}
    (h : Ends allowed computation kernel fun _ after => scene.Quiet after) :
    Ends allowed (do return f (← computation)) kernel fun answer after =>
      ∃ reply, Progress.done answer = .done reply ∧ scene.Quiet after :=
  h.bind fun _ _ _ same shows => .pure shows ⟨_, rfl, same⟩

variable (shows : kernel.Shows scene)
include shows

theorem resolve_ends (name : ThreadName) :
    Ends allowed (Request.resolve (σ := Uniprocessor) name) kernel fun _ after =>
      after = scene := by
  cases name with
  | id thread => exact .pure shows rfl
  | me => exact .current shows (.pure shows rfl)

include usual

/-- Whoever looks at the tables within a bracket changes nothing. -/
theorem look_ends {operation : String} {f : Tables → Except Violation α}
    (refuses : ∀ tables violation, f tables = .error violation → violation.ordinary = true) :
    Ends allowed (bracket (readTables operation f)) kernel fun _ after => after = scene :=
  .bracket ((readTables_ends usual shows.masked fun violation => refuses _ violation).imp
    fun _ _ h => h.1)

theorem lookAtTables_ends {operation : String} (f : Tables → α) :
    Ends allowed (bracket (readTables operation fun tables => .ok (f tables))) kernel
      fun _ after => after = scene :=
  look_ends usual shows fun tables violation h => by cases h

theorem lookAtQueue_ends {operation : String} (id : QueueId) (f : Queue → α) :
    Ends allowed (bracket (readTables operation fun tables => (tables.queue id).map f)) kernel
      fun _ after => after = scene := by
  refine look_ends usual shows fun tables violation h => ?_
  cases hq : tables.queue id with
  | ok queue =>
    rw [hq] at h
    cases h
  | error other =>
    rw [hq] at h
    cases h
    exact Tables.queue_refuses hq

theorem getPriority_ends {operation : String} (thread : ThreadId) :
    Ends allowed (updateTables operation fun tables => .ok (tables.baseOf thread)) kernel
      fun _ after => scene.Quiet after := by
  refine updateTables_ends usual shows (fun weight tables h => ?_) (by simp)
  cases h
  refine ⟨Tables.enrol_sound shows.sound thread, scene.quiet_ledger ?_⟩
  rw [← shows.ledger]
  exact congrArg Ledger.queue? (congrArg Ledger.bare (Tables.ledger_enrol _ thread))

theorem setBase_ends {operation : String} (thread : ThreadId) (weight : Int) :
    Ends allowed (changeTables operation (·.setBase thread weight)) kernel
      fun _ after => scene.Quiet after := by
  obtain ⟨after, ok, sound, same⟩ := Tables.setBase_ok shows.sound thread weight
  refine changeTables_ends usual shows (fun tables h => ?_) (by simp [ok])
  cases h.symm.trans ok
  refine ⟨sound, scene.quiet_ledger ?_⟩
  rw [← shows.ledger]
  exact same

theorem effective_ends (thread : ThreadId) :
    Ends allowed (Scheduler.getEffectivePriority thread) kernel fun _ after =>
      scene.Quiet after := by
  have sound := shows.sound
  obtain ⟨weight, after, ok, weighed, -⟩ :=
    Tables.effective_ok sound.linked sound.acyclic sound.coherent thread
  have bare : after.ledger.bare = kernel.tables.ledger.bare := by
    rw [Tables.ledger_bare_eq_of_bare weighed.bare, Tables.ledger_enrol]
  refine updateTables_ends usual shows (fun weight tables h => ?_) (by simp [ok])
  cases h.symm.trans ok
  refine ⟨sound.of_bare bare weighed.coherent, scene.quiet_ledger ?_⟩
  rw [bare, ← shows.ledger]

theorem trySetPriority_ends (thread : ThreadId) (weight : Int) :
    Ends allowed (Scheduler.trySetPriority thread weight) kernel fun _ after =>
      scene.Quiet after := by
  refine .requireMasked usual (.get ?_)
  split
  · exact .pure shows (.refl scene)
  · exact (setBase_ends usual shows thread weight).bind fun _ _ _ same shows => .pure shows same

theorem stepPriority_ends (operation : String) (step : Int) (atBound : Policy → Int → Bool) :
    Ends allowed (Scheduler.stepPriority operation step atBound) kernel fun _ after =>
      scene.Quiet after := by
  refine .bracket (.current shows.masked (.get ?_))
  refine (getPriority_ends usual shows.masked _).bind fun weight next kernel same shows => ?_
  split
  · exact .pure shows same
  · exact (setBase_ends usual shows _ _).bind fun _ _ _ same' shows =>
      .pure shows (same.trans same')

theorem quiet_ends {request : Request} (plain : request.quiet = true) :
    Ends allowed request.perform kernel fun progress after =>
      ∃ reply, progress = .done reply ∧ scene.Quiet after := by
  cases request with
  | isEmpty id | owner id | waiters id =>
    exact answering_ends (lookAtQueue_ends usual shows id _).still.quietly
  | queueCount | threadCount => exact answering_ends (lookAtTables_ends usual shows _).still.quietly
  | knows name =>
    refine answering_ends ((resolve_ends shows name).bind ?_)
    rintro thread scene kernel rfl shows
    exact (lookAtTables_ends usual shows _).still.quietly
  | weight name =>
    refine answering_ends ((resolve_ends shows name).bind ?_)
    rintro thread scene kernel rfl shows
    exact (getPriority_ends usual shows thread).quietly
  | effective name =>
    refine answering_ends ((resolve_ends shows name).bind ?_)
    rintro thread scene kernel rfl shows
    exact (effective_ends usual shows thread).quietly
  | setWeight name requested =>
    refine silently_ends ((resolve_ends shows name).bind ?_)
    rintro thread scene kernel rfl shows
    exact (setBase_ends usual shows thread requested).imp fun _ _ same => ⟨_, rfl, same⟩
  | trySetWeight name requested =>
    refine answering_ends ((resolve_ends shows name).bind ?_)
    rintro thread scene kernel rfl shows
    refine (trySetPriority_ends usual shows thread requested).bind ?_
    intro answer after kernel same shows
    cases answer <;> exact .pure shows ⟨_, rfl, same⟩
  | increase | decrease => exact answering_ends (stepPriority_ends usual shows _ _ _).quietly
  | current | policy | config | maskings | now | interrupts =>
    exact .of_ok rfl shows rfl ⟨_, rfl, .refl scene⟩
  | disable => exact .of_ok rfl shows.masked (fault_masked kernel) ⟨_, rfl, .refl scene⟩
  | restore enabled =>
    exact .of_ok rfl (shows.withInterrupts enabled) (fault_withInterrupts kernel enabled)
      ⟨_, rfl, .refl scene⟩
  | add name amount =>
    have memory : kernel.memory = scene.memory := congrArg (·.memory) shows.scene_eq
    exact .of_ok rfl (shows.memory _) rfl ⟨_, rfl, _, _, rfl, rfl⟩
  | lockHeld index =>
    refine answering_ends ((lockLookup_ends usual shows index).bind ?_)
    rintro lock scene kernel ⟨rfl, -⟩ shows
    exact (isHeld_ends usual shows lock).still.quietly
  | lockHolder index =>
    refine answering_ends ((lockLookup_ends usual shows index).bind ?_)
    rintro lock scene kernel ⟨rfl, -⟩ shows
    exact (lookAtQueue_ends usual shows lock.queue _).still.quietly
  | conditionWaiters index =>
    refine answering_ends (Ends.quietly (.bracket ?_))
    refine (waitingAt_ends usual shows.masked index).bind ?_
    rintro line scene kernel ⟨rfl, -⟩ shows
    exact .pure shows (.refl scene)
  | joinDone index | joinTarget index =>
    refine answering_ends ((joinLookup_ends usual shows index).bind ?_)
    rintro point scene kernel ⟨rfl, -⟩ shows
    exact .pure shows ⟨_, rfl, .refl scene⟩
  | alarmPending | alarmDeadline =>
    refine answering_ends (Ends.quietly (.bracket ?_))
    refine (sleepers_ends usual shows.masked).bind ?_
    rintro sleepers scene kernel ⟨rfl, -⟩ shows
    exact .pure shows (.refl scene)
  | _ => cases plain

end

/-! ## Orderly requests -/

/-- Whether a context may make a request without reaching under the operations by which threads
meet. The driver does not end itself. -/
def Request.orderly (driver : Bool) : Request → Bool
  | newQueue _ | closeQueue _ | wait .. | acquire .. | next _ | sleep | ready _ => false
  | exitThread (.id _) => false
  | finish | joinExit _ => !driver
  | _ => true

/-- What a request does to a scene. Where there is no room for another handle, no promise is made
of the queues that it makes. -/
inductive Request.Outcome (room : Prop) (scene : Scene) : Request → Progress → Scene → Prop
  | quiet {request : Request} {reply : Reply} {after : Scene} (plain : request.quiet = true)
    (same : scene.Quiet after) : Outcome room scene request (.done reply) after
  | exit : Outcome room scene (.exitThread .me) (.done .nothing)
      { scene with ledger := scene.ledger.dismiss scene.current }
  | finish : Outcome room scene .finish .finished
      { scene with ledger := scene.ledger.dismiss scene.current }
  | lock {lock : Lock} {next : Scene} (makes : scene.Makes room true lock.queue next) :
    Outcome room scene .lock (.done (.queue lock.queue)) { next with locks := next.locks ++ [lock] }
  | lockAcquire {index : Nat} {lock : Lock} {progress : Progress} {after : Scene}
    (made : scene.locks[index]? = some lock) (acquires : scene.Acquires lock progress after) :
    Outcome room scene (.lockAcquire index) progress after
  | lockRelease {index : Nat} {lock : Lock} {after : Scene}
    (made : scene.locks[index]? = some lock) (releases : scene.Releases lock after) :
    Outcome room scene (.lockRelease index) (.done .nothing) after
  | condition {index : Nat} {lock : Lock} (made : scene.locks[index]? = some lock) :
    Outcome room scene (.condition index) (.done (.queue lock.queue))
      { scene with conditions := scene.conditions ++ [⟨lock, []⟩] }
  | conditionWait {index : Nat} {progress : Progress} {after : Scene}
    (waits : scene.Waits index progress after) :
    Outcome room scene (.conditionWait index) progress after
  | conditionWhile {index : Nat} {predicate : Memory → Bool} {progress : Progress} {after : Scene}
    (waits : scene.WaitsWhile index predicate 0 progress after) :
    Outcome room scene (.conditionWhile index predicate) progress after
  | conditionSignal {index : Nat} {after : Scene} (calls : scene.CallsUp index false after) :
    Outcome room scene (.conditionSignal index) (.done .nothing) after
  | conditionBroadcast {index : Nat} {after : Scene} (calls : scene.CallsUp index true after) :
    Outcome room scene (.conditionBroadcast index) (.done .nothing) after
  | joinPoint {name : ThreadName} {target : ThreadId} {id : QueueId} {queue : Queue}
    {next : Scene} (makes : scene.Makes room true id next)
    (live : next.ledger.queue? id = some queue) (absent : target ∉ queue.waiting) :
    Outcome room scene (.joinPoint name) (.done .nothing)
      { next with
        ledger := next.ledger.install id target
        joins := next.joins ++ [⟨id, target, false, false⟩] }
  | join {index : Nat} {progress : Progress} {after : Scene}
    (joins : scene.Joins index progress after) : Outcome room scene (.join index) progress after
  | joinExit {index : Nat} {after : Scene} (exits : scene.Exits index after) :
    Outcome room scene (.joinExit index) .finished after
  | alarmWait {ticks : Int} {progress : Progress} {after : Scene}
    (naps : scene.Naps ticks progress after) : Outcome room scene (.alarmWait ticks) progress after
  | alarmTick {tick : Nat} {progress : Progress} {after : Scene}
    (ticks : scene.Ticks tick progress after) : Outcome room scene (.alarmTick tick) progress after
  | yield {progress : Progress} {after : Scene} (offers : scene.Offers progress after) :
    Outcome room scene .yield progress after

/-- A context that waits is not ended by that. -/
theorem Scene.Waits.goes_on {index : Nat} {scene after : Scene} {progress : Progress}
    (waits : scene.Waits index progress after) (tasks : List Task) :
    progress.owing tasks ≠ .finished := by
  cases waits
  exact fun same => by cases same

theorem Scene.WaitsWhile.goes_on {index passes : Nat} {predicate : Memory → Bool}
    {scene after : Scene} {progress : Progress}
    (waits : scene.WaitsWhile index predicate passes progress after) : progress ≠ .finished := by
  cases waits with
  | stop => exact fun same => by cases same
  | waits holds waits => exact waits.goes_on _

/-- The requests that end their callers. -/
theorem Request.Outcome.ends {room : Prop} {scene after : Scene} {request : Request}
    (outcome : request.Outcome room scene .finished after) :
    request = .finish ∨ ∃ index, request = .joinExit index := by
  cases outcome with
  | finish => exact .inl rfl
  | joinExit => exact .inr ⟨_, rfl⟩
  | lockAcquire made acquires => cases acquires
  | conditionWait waits => exact absurd rfl (waits.goes_on [])
  | conditionWhile waits => exact absurd rfl waits.goes_on
  | join joins => cases joins
  | alarmWait naps => cases naps
  | alarmTick ticks => cases ticks
  | yield offers => cases offers

section

variable {allowed : Violation → Prop}
  (usual : ∀ violation : Violation, violation.ordinary = true → allowed violation)
  {kernel : Kernel Uniprocessor} {scene : Scene} {strays : ThreadId → Prop}
  (shows : kernel.Shows scene) (settled : scene.SettledBut strays)
include usual shows settled

/-- An orderly request does what its outcome says, or fails. It does not ready a thread that is not
asleep. -/
theorem perform_ends {driver : Bool} {request : Request} (orderly : request.orderly driver = true) :
    Ends allowed request.perform kernel
      (request.Outcome (kernel.tables.queues.size < 4294967296) scene) := by
  cases plain : request.quiet with
  | true =>
    refine (quiet_ends usual shows plain).imp ?_
    rintro _ after ⟨reply, rfl, same⟩
    exact .quiet plain same
  | false =>
    cases request with
    | exitThread name =>
      cases name with
      | id thread => cases orderly
      | me =>
        refine silently_ends (.current shows (.bracket ((forget_ends usual shows.masked _).imp ?_)))
        rintro _ _ rfl
        exact .exit
    | finish =>
      refine (finish_ends usual shows).imp ?_
      rintro _ _ ⟨rfl, rfl⟩
      exact .finish
    | lock =>
      refine answering_ends ((lockCreate_ends usual shows).bind ?_)
      rintro lock _ kernel ⟨next, makes, rfl⟩ shows
      exact .pure shows (.lock makes)
    | lockAcquire index =>
      refine (lockLookup_ends usual shows index).bind ?_
      rintro lock scene kernel ⟨rfl, made⟩ shows
      exact (lockAcquire_ends usual shows lock).imp fun _ _ acquires => .lockAcquire made acquires
    | lockRelease index =>
      refine silently_ends ((lockLookup_ends usual shows index).bind ?_)
      rintro lock scene kernel ⟨rfl, made⟩ shows
      exact (lockRelease_ends usual shows lock fun _ => settled.asleep_of_waiters).imp
        fun _ _ releases => .lockRelease made releases
    | condition index =>
      refine answering_ends ((lockLookup_ends usual shows index).bind ?_)
      rintro lock scene kernel ⟨rfl, made⟩ shows
      refine (conditionCreate_ends shows lock).bind ?_
      rintro _ _ kernel ⟨rfl, rfl⟩ shows
      exact .pure shows (.condition made)
    | conditionWait index =>
      exact (conditionWait_ends usual shows settled index).imp fun _ _ => .conditionWait
    | conditionWhile index predicate =>
      exact (waitWhile_ends usual shows settled index predicate 0).imp fun _ _ => .conditionWhile
    | conditionSignal index =>
      exact silently_ends ((signal_ends usual shows settled index).imp fun _ _ => .conditionSignal)
    | conditionBroadcast index =>
      exact silently_ends
        ((broadcast_ends usual shows settled index).imp fun _ _ => .conditionBroadcast)
    | joinPoint name =>
      have creates : ∀ target, Ends allowed (do let _ ← Join.create target) kernel fun _ after =>
          Request.Outcome (kernel.tables.queues.size < 4294967296) scene (.joinPoint name)
            (.done .nothing) after := by
        refine fun target => (joinCreate_ends usual shows target).bind ?_
        rintro point _ kernel ⟨next, queue, fresh, makes, live, absent, rfl⟩ shows
        refine .pure shows ?_
        rw [fresh]
        exact .joinPoint makes live absent
      cases name with
      | id target => exact silently_ends (creates target)
      | me => exact silently_ends (.current shows (creates scene.current))
    | join index => exact (join_ends usual shows index).imp fun _ _ => .join
    | joinExit index =>
      refine (joinExit_ends usual shows settled index).imp ?_
      rintro _ _ ⟨rfl, exits⟩
      exact .joinExit exits
    | alarmWait ticks => exact (waitUntil_ends usual shows ticks).imp fun _ _ => .alarmWait
    | alarmTick tick => exact (onTick_ends usual shows settled tick).imp fun _ _ => .alarmTick
    | yield => exact (offerProcessor_ends shows).imp fun _ _ => .yield
    | newQueue | closeQueue | wait | acquire | next | sleep | ready => cases orderly
    | _ => cases plain

end

/-! ## Tasks -/

/-- What a task of a call that has switched away does to a scene. -/
inductive Task.Outcome (scene : Scene) : Task → Progress → Scene → Prop
  | leave {saved : Bool} : Outcome scene (.leave saved) (.done .nothing) scene
  | confirm {lock : Lock} (held : scene.ledger.owner? lock.queue = some scene.current) :
    Outcome scene (.confirm lock) (.done .nothing) scene
  | acquire {lock : Lock} {progress : Progress} {after : Scene}
    (acquires : scene.Acquires lock progress after) : Outcome scene (.acquire lock) progress after
  | recheck {index passes : Nat} {predicate : Memory → Bool} {progress : Progress} {after : Scene}
    (waits : scene.WaitsWhile index predicate passes progress after) :
    Outcome scene (.recheck index predicate passes) progress after
  | wakeDue {tick : Nat} : Outcome scene (.wakeDue tick) (.done .nothing) (scene.wakeDue tick)

/-- No task ends its thread. -/
theorem Task.Outcome.goes_on {scene after : Scene} {task : Task} :
    ¬ task.Outcome scene .finished after := by
  intro outcome
  cases outcome with
  | acquire acquires => cases acquires
  | recheck waits => exact waits.goes_on rfl

/-- What a call that has switched away does when it goes on, to its end or until it switches away
once more. -/
inductive Resumed : Scene → List Task → Progress → Scene → Prop
  | stop {scene : Scene} {reply : Reply} : Resumed scene [] (.done reply) scene
  | next {scene mid after : Scene} {task : Task} {rest : List Task} {reply : Reply}
    {progress : Progress} (first : task.Outcome scene (.done reply) mid)
    (others : Resumed mid rest progress after) : Resumed scene (task :: rest) progress after
  | away {scene after : Scene} {task : Task} {rest owed : List Task}
    (first : task.Outcome scene (.switched owed) after) :
    Resumed scene (task :: rest) (.switched (owed ++ rest)) after

theorem Resumed.goes_on {scene after : Scene} {owed : List Task} :
    ¬ Resumed scene owed .finished after := by
  intro resumed
  generalize ended : Progress.finished = progress at resumed
  induction resumed with
  | stop => cases ended
  | next first others ih => exact ih ended
  | away first => cases ended

/-- Of the locks that a call has slept for there is one at most, the first thing that it looks at,
and the caller holds it. -/
def Scene.Trusts (scene : Scene) : List Task → Prop
  | [] => True
  | task :: rest =>
    (∀ lock, task = .confirm lock → scene.ledger.owner? lock.queue = some scene.current) ∧
      ∀ lock, .confirm lock ∉ rest

/-- What is left to do when the first task is done can be trusted anywhere. -/
theorem Scene.Trusts.tail {scene : Scene} {task : Task} {rest : List Task}
    (trusts : scene.Trusts (task :: rest)) (other : Scene) : other.Trusts rest := by
  cases rest with
  | nil => trivial
  | cons next rest =>
    refine ⟨fun lock same => ?_, fun lock h => trusts.2 lock (List.mem_cons_of_mem _ h)⟩
    exact absurd (same ▸ List.mem_cons_self) (trusts.2 lock)

section

variable {allowed : Violation → Prop}
  (usual : ∀ violation : Violation, violation.ordinary = true → allowed violation)
  {kernel : Kernel Uniprocessor} {scene : Scene} {strays : ThreadId → Prop}
  (shows : kernel.Shows scene) (settled : scene.SettledBut strays)
include usual shows settled

theorem run_ends {task : Task}
    (trusts : (∀ thread holder, allowed (.wokenWithoutLock thread holder)) ∨
      ∀ lock, task = .confirm lock → scene.ledger.owner? lock.queue = some scene.current) :
    Ends allowed task.run kernel (task.Outcome scene) := by
  cases task with
  | leave saved =>
    exact .of_ok rfl (shows.withInterrupts saved) (fault_withInterrupts kernel saved) .leave
  | confirm lock =>
    refine (confirm_ends usual shows lock (trusts.symm.imp_left fun held => held lock rfl)).bind ?_
    rintro _ scene kernel ⟨rfl, held⟩ shows
    exact .pure shows (.confirm held)
  | acquire lock => exact (lockAcquire_ends usual shows lock).imp fun _ _ => .acquire
  | recheck index predicate passes =>
    exact (waitWhile_ends usual shows settled index predicate passes).imp fun _ _ => .recheck
  | wakeDue tick =>
    refine (wakeDue_ends usual shows settled tick).bind ?_
    rintro _ _ kernel rfl shows
    exact .pure shows .wakeDue

end

end Turnstile
