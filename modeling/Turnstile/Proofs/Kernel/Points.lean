import Turnstile.Proofs.Kernel.Regaining

/-!
# What becomes of join points

What one operation does to the queue of an open join point, one whose target has not exited.

* **`Scene.Attends`** lists all that can happen to it: it is left alone, its caller joins and is put
  among the waiters, or its target exits.
* **`Scene.Joinable`** follows: nobody waits before somebody has joined, and one thread at most does
  afterwards. It is kept by every request (`Request.Outcome.joinable`) and by every call that goes
  on (`Resumed.joinable`).
-/

namespace Turnstile

namespace Ledger

/-- The waiters of a queue stay, and so does whether it donates. Its owner may have left. -/
structure Spares (id : QueueId) (before after : Ledger) : Prop where
  waiters : after.waiters id = before.waiters id
  donates : after.donates id = before.donates id

variable {id other : QueueId} {before mid after : Ledger} {thread : ThreadId}

theorem Spares.of_queue? (same : after.queue? id = before.queue? id) : Spares id before after :=
  ⟨by rw [Ledger.waiters, same]; rfl, by rw [Ledger.donates, same]; rfl⟩

theorem Spares.trans (first : Spares id before mid) (second : Spares id mid after) :
    Spares id before after :=
  ⟨second.waiters.trans first.waiters, second.donates.trans first.donates⟩

theorem spares_install (ledger : Ledger) (id other : QueueId) (thread : ThreadId) :
    Spares id ledger (ledger.install other thread) :=
  ⟨waiters_install _ _ _ _, donates_install _ _ _ _⟩

theorem spares_join (ne : id ≠ other) : Spares id before (before.join other thread) :=
  .of_queue? (by simp [Ledger.join, Ledger.write, Ledger.alter, ne])

theorem spares_handOn (ne : id ≠ other) (winner : Option ThreadId) :
    Spares id before (before.handOn other winner) :=
  ⟨by rw [waiters_handOn, if_neg ne], by cases winner <;> simp [handOn]⟩

theorem spares_dismiss (absent : thread ∉ before.waiters id) :
    Spares id before (before.dismiss thread) :=
  ⟨by rw [waiters_dismiss, filter_of_notMem absent], donates_dismiss _ _ _⟩

theorem spares_close (ne : id ≠ other) : Spares id before (before.close other) :=
  .of_queue? (by simp [Ledger.close, Ledger.strip, ne])

end Ledger

namespace Scene

/-- What can happen to an open join point in an operation of `scene.current`. Somebody joins, or the
target exits, only by an operation that does so (`joins`, `exits`). -/
inductive Attends (joins exits : Prop) (index : Nat) (point : Join) (scene after : Scene) : Prop
  | spared (there : after.joins[index]? = some point)
    (spares : Ledger.Spares point.queue scene.ledger after.ledger)
  | joined (joins : joins) (first : point.joined = false)
    (there : after.joins[index]? = some { point with joined := true })
    (waiters : after.ledger.waiters point.queue = scene.ledger.waiters point.queue ++
      [scene.current])
    (donates : after.ledger.donates point.queue = scene.ledger.donates point.queue)
  | exited (exits : exits) (target : scene.current = point.target)
    (there : after.joins[index]? = some { point with done := true })

/-- Nobody waits on the queue of an open join point before somebody has joined, and one thread at
most does afterwards. The queue donates. -/
structure Joinable (scene : Scene) : Prop where
  unjoined : ∀ (index : Nat) (point : Join), scene.joins[index]? = some point → point.done = false →
    point.joined = false → scene.ledger.waiters point.queue = []
  single : ∀ (index : Nat) (point : Join), scene.joins[index]? = some point → point.done = false →
    (scene.ledger.waiters point.queue).length ≤ 1
  donates : ∀ (index : Nat) (point : Join), scene.joins[index]? = some point → point.done = false →
    scene.ledger.donates point.queue = true

variable {scene after : Scene} {progress : Progress} {joins exits : Prop} {index : Nat}
  {point : Join}

/-- Where threads stand has no part in join points. -/
theorem Attends.restage (attends : Attends joins exits index point scene after) (stage : Stage)
    (sleepers : SleepQueue) :
    Attends joins exits index point scene { after with stage, sleepers } := by
  cases attends with
  | spared there spares => exact .spared there spares
  | joined joins first there waiters donates => exact .joined joins first there waiters donates
  | exited exits target there => exact .exited exits target there

/-- Join points that are open afterwards were there before, open, or have just been made. -/
theorem Joinable.of_attends {joins exits : Nat → Prop} (joinable : scene.Joinable)
    (attends : ∀ (index : Nat) (point : Join), scene.joins[index]? = some point →
      point.done = false →
      Attends (joins index) (exits index) index point scene after)
    (origin : ∀ (index : Nat) (point : Join), after.joins[index]? = some point →
      point.done = false →
      (∃ old, scene.joins[index]? = some old ∧ old.done = false) ∨
        after.ledger.waiters point.queue = [] ∧ after.ledger.donates point.queue = true) :
    after.Joinable := by
  have each : ∀ (index : Nat) (point : Join), after.joins[index]? = some point →
    point.done = false →
      (point.joined = false → after.ledger.waiters point.queue = []) ∧
        (after.ledger.waiters point.queue).length ≤ 1 ∧
          after.ledger.donates point.queue = true := by
    intro index point there on
    rcases origin index point there on with ⟨old, made, open_⟩ | ⟨nobody, donates⟩
    · have donates := joinable.donates index old made open_
      cases attends index old made open_ with
      | spared there' spares =>
        cases there.symm.trans there'
        rw [spares.waiters, spares.donates]
        exact ⟨joinable.unjoined index _ made on, joinable.single index _ made on, donates⟩
      | joined _ first there' waiters donates' =>
        cases there.symm.trans there'
        have nobody := joinable.unjoined index old made open_ first
        rw [waiters, nobody, donates']
        exact ⟨nofun, Nat.le_refl 1, donates⟩
      | exited _ _ there' =>
        cases there.symm.trans there'
        cases on
    · -- the point has just been made
      rw [nobody]
      exact ⟨fun _ => rfl, Nat.zero_le 1, donates⟩
  exact ⟨fun index point there on => (each index point there on).1,
    fun index point there on => (each index point there on).2.1,
    fun index point there on => (each index point there on).2.2⟩

/-! ## Operations by which threads meet -/

section

variable {id : QueueId} {lock : Lock}

theorem HandsOn.spares {other : QueueId} (hands : scene.HandsOn other after) (ne : id ≠ other) :
    Ledger.Spares id scene.ledger after.ledger := by
  obtain ⟨queue, winner, -, -, -, rfl⟩ := hands
  exact Ledger.spares_handOn ne winner

theorem Acquires.spares (acquires : scene.Acquires lock progress after) (ne : id ≠ lock.queue) :
    Ledger.Spares id scene.ledger after.ledger := by
  cases acquires with
  | free => exact Ledger.spares_install _ _ _ _
  | held => exact Ledger.spares_join ne

variable (apart : scene.Apart) (made : scene.joins[index]? = some point) (on : point.done = false)
include apart made on

theorem Waits.spares {place : Nat} (waits : scene.Waits place progress after) :
    Ledger.Spares point.queue scene.ledger after.ledger := by
  obtain ⟨-, bound, gives⟩ := waits
  exact gives.hands.spares
    (apart.join_apart index point made on _ (apart.lock_made place _ bound)).symm

theorem WaitsWhile.spares {place passes : Nat} {predicate : Memory → Bool}
    (waits : scene.WaitsWhile place predicate passes progress after) :
    Ledger.Spares point.queue scene.ledger after.ledger := by
  cases waits with
  | stop => exact .of_queue? rfl
  | waits holds waits => exact waits.spares apart made on

/-- What joining does to the join point itself and to others. -/
theorem Joins.attends {place : Nat} (joins : scene.Joins place progress after) :
    Attends (index = place) exits index point scene after := by
  have changed := joins.joins
  by_cases here : place = index
  · subst here
    have there : after.joins[place]? = some { point with joined := true } := by
      rw [changed]
      simp [Scene.joined, made]
    cases joins with
    | late made' past =>
      cases made.symm.trans made'
      cases on.symm.trans past
    | waits runs made' on' live first =>
      cases made.symm.trans made'
      refine .joined rfl first there ?_ (Ledger.donates_join _ _ _ _)
      rw [current_of_running runs]
      exact (Ledger.waiters_join _ _ _ _ live).trans (if_pos rfl)
  · refine .spared ?_ ?_
    · rw [changed]
      simp [Scene.joined, here, made]
    · cases joins with
      | late => exact .of_queue? rfl
      | waits runs made' on' live first =>
        -- open points have queues of their own
        refine Ledger.spares_join fun same => here ?_
        exact (apart.join_unique index place point _ made made' on on' same).symm

/-- What an exit does to the join point itself and to others. Whoever exits does so for the
first time. -/
theorem Exits.attends {place : Nat} (exits : scene.Exits place after) (sane : scene.stage.Sane)
    (settled : scene.Settled)
    (still : ∀ point : Join, scene.joins[place]? = some point → scene.current = point.target →
      point.done = false) : Attends joins (index = place) index point scene after := by
  obtain ⟨made', target, hands, -, -⟩ := exits
  by_cases here : place = index
  · subst here
    cases made.symm.trans made'
    exact .exited rfl target (by simp [made])
  · have ne : point.queue ≠ _ := fun same => here
      (apart.join_unique index place point _ made made' on (still _ made' target) same).symm
    refine .spared (by simp [here, made]) ?_
    have closed := (hands.spares ne).trans (Ledger.spares_close ne)
    have absent := settled.not_waits (current_awake sane) (.queue point.queue)
    exact closed.trans (Ledger.spares_dismiss (closed.waiters ▸ absent))

end

end Scene

/-! ## Requests and tasks -/

section

variable {room : Prop} {scene after : Scene} {progress : Progress} {request : Request} {index : Nat}
  {point : Join}

/-- Where the join points that are there afterwards come from. -/
theorem Request.Outcome.origin (outcome : request.Outcome room scene progress after) (enough : room)
    (there : after.joins[index]? = some point) (on : point.done = false) :
    (∃ old, scene.joins[index]? = some old ∧ old.done = false) ∨
      after.ledger.waiters point.queue = [] ∧ after.ledger.donates point.queue = true := by
  cases outcome with
  | quiet plain same =>
    obtain ⟨ledger, memory, -, rfl⟩ := same
    exact .inl ⟨point, there, on⟩
  | exit | finish | condition => exact .inl ⟨point, there, on⟩
  | lock makes =>
    obtain ⟨-, rfl⟩ := makes.free enough
    exact .inl ⟨point, there, on⟩
  | lockAcquire made acquires => cases acquires <;> exact .inl ⟨point, there, on⟩
  | lockRelease made releases =>
    rw [releases.hands.joins] at there
    exact .inl ⟨point, there, on⟩
  | conditionWait waits =>
    rw [waits.joins] at there
    exact .inl ⟨point, there, on⟩
  | conditionWhile waits =>
    rw [waits.joins] at there
    exact .inl ⟨point, there, on⟩
  | conditionSignal calls | conditionBroadcast calls =>
    cases calls <;> exact .inl ⟨point, there, on⟩
  | joinPoint makes =>
    obtain ⟨-, rfl⟩ := makes.free enough
    rcases getElem?_snoc there with old | ⟨-, rfl⟩
    · exact .inl ⟨point, old, on⟩
    · refine .inr ⟨?_, ?_⟩
      · exact (Ledger.waiters_install _ _ _ _).trans
          ((Ledger.waiters_place _ _ _ _).trans (if_pos rfl))
      · rw [Ledger.donates_install]
        simp [Ledger.donates, Ledger.place, Queue.fresh]
  | join joins =>
    rw [joins.joins] at there
    obtain ⟨old, found, rfl⟩ := getElem?_modified there
    exact .inl ⟨old, found, by split at on <;> exact on⟩
  | joinExit exits =>
    obtain ⟨made, target, hands, -, -⟩ := exits
    obtain ⟨old, found, rfl⟩ := getElem?_modified there
    split at on
    · cases on
    · exact .inl ⟨old, found, on⟩
  | alarmWait naps => cases naps <;> exact .inl ⟨point, there, on⟩
  | alarmTick ticks => cases ticks <;> exact .inl ⟨point, there, on⟩
  | yield offers => cases offers <;> exact .inl ⟨point, there, on⟩

variable (apart : scene.Apart) (made : scene.joins[index]? = some point) (on : point.done = false)
include apart made on

/-- What a request does to an open join point, if nobody exits through a join point for a
second time. -/
theorem Request.Outcome.attends (outcome : request.Outcome room scene progress after)
    (enough : room)
    (sane : scene.stage.Sane) (settled : scene.Settled)
    (still : ∀ place, request = .joinExit place → ∀ point : Join, scene.joins[place]? = some point →
      scene.current = point.target → point.done = false) :
    Scene.Attends (request = .join index) (request = .joinExit index) index point scene after := by
  have apart' : ∀ {place : Nat} {lock : Lock}, scene.locks[place]? = some lock →
      point.queue ≠ lock.queue := fun there =>
    (apart.join_apart index point made on _ (List.mem_of_getElem? there)).symm
  have dismissed : Ledger.Spares point.queue scene.ledger (scene.ledger.dismiss scene.current) :=
    Ledger.spares_dismiss (settled.not_waits (Scene.current_awake sane) (.queue point.queue))
  have live := apart.join_live index point made on
  cases outcome with
  | quiet plain same =>
    obtain ⟨ledger, memory, queues, rfl⟩ := same
    exact .spared made (.of_queue? (congrFun queues _))
  | exit | finish => exact .spared made dismissed
  | condition => exact .spared made (.of_queue? rfl)
  | lock makes =>
    obtain ⟨free, rfl⟩ := makes.free enough
    exact .spared made (.of_queue? (if_neg (Ledger.ne_of_live free live)))
  | lockAcquire there acquires =>
    refine .spared ?_ (acquires.spares (apart' there))
    cases acquires <;> exact made
  | lockRelease there releases =>
    exact .spared (releases.hands.joins ▸ made) (releases.hands.spares (apart' there))
  | conditionWait waits => exact .spared (waits.joins ▸ made) (waits.spares apart made on)
  | conditionWhile waits => exact .spared (waits.joins ▸ made) (waits.spares apart made on)
  | conditionSignal calls | conditionBroadcast calls =>
    cases calls <;> exact .spared made (.of_queue? rfl)
  | joinPoint makes =>
    obtain ⟨free, rfl⟩ := makes.free enough
    refine .spared ?_ (.trans (.of_queue? (if_neg (Ledger.ne_of_live free live)))
      (Ledger.spares_install _ _ _ _))
    rw [List.getElem?_append_left (List.getElem?_eq_some_iff.mp made).1]
    exact made
  | @join place progress after joins =>
    have attends : Scene.Attends (index = place) False index point scene after :=
      joins.attends apart made on
    cases attends with
    | spared there spares => exact .spared there spares
    | joined here first there waiters donates =>
      exact .joined (here ▸ rfl) first there waiters donates
    | exited never => exact never.elim
  | @joinExit place after exits =>
    have attends : Scene.Attends False (index = place) index point scene after :=
      exits.attends apart made on sane settled (still place rfl)
    cases attends with
    | spared there spares => exact .spared there spares
    | joined never => exact never.elim
    | exited here target there => exact .exited (here ▸ rfl) target there
  | alarmWait naps => cases naps <;> exact .spared made (.of_queue? rfl)
  | alarmTick ticks => cases ticks <;> exact .spared made (.of_queue? rfl)
  | yield offers => cases offers <;> exact .spared made (.of_queue? rfl)

/-- A task that takes no lock but one that was made leaves open join points alone. -/
theorem Task.Outcome.spares {task : Task} (outcome : task.Outcome scene progress after)
    (named : ∀ lock, task = .acquire lock → lock ∈ scene.locks) :
    Ledger.Spares point.queue scene.ledger after.ledger := by
  cases outcome with
  | leave | confirm | wakeDue => exact .of_queue? rfl
  | @acquire lock progress after acquires =>
    exact acquires.spares (apart.join_apart index point made on lock (named lock rfl)).symm
  | recheck waits => exact waits.spares apart made on

theorem Resumed.spares {owed : List Task} (resumed : Resumed scene owed progress after)
    (named : ∀ lock, .acquire lock ∈ owed → lock ∈ scene.locks) :
    after.joins = scene.joins ∧ Ledger.Spares point.queue scene.ledger after.ledger := by
  induction resumed with
  | stop => exact ⟨rfl, .of_queue? rfl⟩
  | @next scene mid after task rest reply progress first others ih =>
    obtain ⟨locks, joins⟩ := first.made
    have spares := first.spares apart made on fun lock same =>
      named lock (same ▸ List.mem_cons_self)
    obtain ⟨joins', spares'⟩ := ih (first.meets apart).apart (joins ▸ made) fun lock h =>
      locks ▸ named lock (List.mem_cons_of_mem _ h)
    exact ⟨joins'.trans joins, spares.trans spares'⟩
  | away first =>
    exact ⟨first.made.2, first.spares apart made on fun lock same =>
      named lock (same ▸ List.mem_cons_self)⟩

end

/-- Whoever is to regain a lock takes no other. -/
theorem Scene.Regains.named {scene : Scene} {who : ThreadId} {lock other : Lock} {owed : List Task}
    (regains : scene.Regains who lock owed) (takes : .acquire other ∈ owed) : other = lock := by
  have none : ∀ {tail}, scene.Again lock tail → Task.acquire other ∉ tail := by
    rintro tail (rfl | ⟨index, predicate, passes, condition, rfl, -, -⟩) h
    · cases h
    · simp at h
  cases regains with
  | woken again => simpa [none again] using takes
  | queued again => simp [none again] at takes

theorem Plain.named {lock : Lock} {owed : List Task} (plain : Plain owed) :
    .acquire lock ∉ owed := by
  cases plain <;> simp

end Turnstile
