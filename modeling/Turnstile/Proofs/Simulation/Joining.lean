import Turnstile.Proofs.Simulation.Joinable

/-!
# Joins and exits

What a whole run says of its join points.

* **A call of `join`** that has switched away sleeps on the queue of its join point, alone,
  until the target exits, and is readied by that (`Course.joining`). It does not have the
  processor before (`Course.absent`).
* **A target** has exited through its join point if the point is closed (`Course.closed`), so no
  call of `join` returns before that (`Course.joined`).
* **An exit** goes well whenever its target calls it (`Course.exits`).

`joins_last_until_exits` says all this of every run of orderly scripts, and what an exit
leaves behind.
-/

namespace Turnstile

namespace Simulation

variable {rules : Bool → Request → Bool} {system : Simulation} {thread : ThreadId} {count m n : Nat}

/-! ## Calls under way -/

namespace Course

variable (course : system.Course rules count)
include course

/-- A plain call that has switched away and is still under way after a step was not carried
on in it. -/
theorem off_of_plain {name : String} {owed owed' : List Task} {code : List Code} (h : m < count)
    (there : (steps m system).contexts.get? thread = some { call := some (name, owed), code })
    (plain : Plain owed)
    (later : (steps (m + 1) system).contexts.get? thread =
      some { call := some (name, owed'), code }) :
    (steps m system).current ≠ thread := by
  rintro rfl
  have advance := course.advance h there (.inl nofun)
  obtain ⟨progress, scene, resumed, lands⟩ :=
    (course.orderly m (Nat.le_of_lt h)).of_call advance there
  obtain ⟨⟨reply, done⟩, -⟩ := resumed.plain plain (course.housed m (Nat.le_of_lt h)).apart
  cases done.symm.trans (lands.away later).1

/-- A call that obtains no lock has nothing to do but to leave once it has switched away. -/
theorem owes_plain {request : Request} {rest : List Code} {first : Nat}
    (underway : Underway system thread request rest first n)
    (free : request.obtained (steps first system).kernel.scene = none) (bound : n ≤ count)
    (after : first < m) (before : m ≤ n) : ∃ owed, (steps m system).contexts.get? thread =
      some { call := some (request.name, owed), code := rest } ∧ Plain owed := by
  refine underway.holds (P := fun _ => Plain) (fun owed there => ?_)
    (fun k owed owed' late early there later plain => ?_) after before
  · have order := underway.order
    have h : first < count := by omega
    have calling := underway.calls
    rw [← underway.caller] at calling there
    have advance := course.advance h calling (.inr nofun)
    obtain ⟨code, progress, scene, outcome, lands⟩ :=
      (course.orderly first (Nat.le_of_lt h)).of_calls advance ⟨rfl, rest, calling⟩
    obtain ⟨rfl, -⟩ := lands.away there
    rcases outcome.owed with ⟨lock, obtained, -⟩ | ⟨-, plain⟩
    · cases free.symm.trans obtained
    · exact plain
  · have off := course.off_of_plain (by omega) there plain later
    cases call_of_off there off later
    exact plain

/-- Such a call stands where it stands until its thread has the processor again, and then
returns. -/
theorem absent {request : Request} {rest : List Code} {first : Nat}
    (underway : Underway system thread request rest first n)
    (free : request.obtained (steps first system).kernel.scene = none) (bound : n ≤ count)
    (after : first < m) (before : m < n) : (steps m system).current ≠ thread := by
  obtain ⟨owed, there, plain⟩ := course.owes_plain underway free bound after (Nat.le_of_lt before)
  obtain ⟨owed', later⟩ := underway.within (m + 1) (by omega) before
  exact course.off_of_plain (by omega) there plain later

/-! ## Join points -/

/-- One thread at most ever waits on an open join point. -/
theorem joinable (begins : system.kernel.scene.Joinable) (bound : m ≤ count) :
    (steps m system).kernel.scene.Joinable := by
  induction m with
  | zero => exact begins
  | succ m ih =>
    have ih := ih (Nat.le_of_lt bound)
    rcases course.moves m bound with advance | ⟨-, same⟩
    · exact (course.housed m (Nat.le_of_lt bound)).joinable
        (course.orderly m (Nat.le_of_lt bound)) advance (course.room m bound) ih
    · rw [same]
      exact ih

/-- The target of a join point that is closed has exited through it. -/
theorem closed (empty : system.kernel.joins = []) (bound : m ≤ count) {index : Nat} {point : Join}
    (there : (steps m system).kernel.joins[index]? = some point) (past : point.done = true) :
    ∃ k < m, (steps k system).Calls point.target (.joinExit index) := by
  induction m generalizing point with
  | zero =>
    have there : system.kernel.joins[index]? = some point := there
    simp [empty] at there
  | succ m ih =>
    rcases course.moves m bound with advance | ⟨-, same⟩
    · rcases (course.orderly m (Nat.le_of_lt bound)).closed advance there past with
        ⟨old, there, past, target⟩ | calls
      · obtain ⟨k, before, calls⟩ := ih (Nat.le_of_lt bound) there past
        exact ⟨k, Nat.lt_succ_of_lt before, target ▸ calls⟩
      · exact ⟨m, Nat.lt_succ_self m, calls⟩
    · rw [same] at there
      obtain ⟨k, before, calls⟩ := ih (Nat.le_of_lt bound) there past
      exact ⟨k, Nat.lt_succ_of_lt before, calls⟩

end Course

/-! ## Calls of `join` -/

/-- The thread sleeps on the join point, and nobody else does. -/
structure Joining (system : Simulation) (index : Nat) (point : Join) (thread : ThreadId) :
    Prop where
  there : system.kernel.joins[index]? = some { point with joined := true }
  waits : system.kernel.scene.ledger.waiters point.queue = [thread]
  asleep : system.machine.status? thread = some .blocked

/-- What becomes of a call of `join` in step `first` that has switched away: its thread sleeps on
the join point to the end, or to the step in which the target exits. That readies it, and it is
awake from then on. -/
def Joined (system : Simulation) (index : Nat) (point : Join) (thread : ThreadId) (first n : Nat) :
    Prop :=
  (∀ k, first < k → k ≤ n → (steps k system).Joining index point thread) ∨
    ∃ m, first < m ∧ m < n ∧ (steps m system).Calls point.target (.joinExit index) ∧
      (steps (m + 1) system).machine.ready = (steps m system).machine.ready ++ [thread] ∧
      (∀ k, first < k → k ≤ m → (steps k system).Joining index point thread) ∧
      ∀ k, m < k → k ≤ n → (steps k system).machine.status? thread ≠ some .blocked

namespace Course

variable (course : system.Course rules count)
include course

/-- The target of a join point exits well, whenever it does. -/
theorem exits (begins : system.kernel.scene.Joinable)
    (legal : ∀ driver call, rules driver call = true → call.orderly driver = true) {index : Nat}
    {point : Join} (made : (steps m system).kernel.joins[index]? = some point)
    (calls : (steps m system).Calls point.target (.joinExit index)) (bound : m ≤ count) :
    ∃ joiner, (steps m system).Exited point joiner (steps (m + 1) system) := by
  have target := calls.1
  obtain ⟨after, joiner, step, exited⟩ :=
    (course.housed m bound).exits (course.orderly m bound) legal
    (course.joinable begins bound) (target.symm ▸ calls) made target
  have next : steps (m + 1) system = after := by
    rw [steps_succ, step]
    rfl
  exact ⟨joiner, next ▸ exited⟩

/-- A call of `join` finds its join point closed and returns, or it finds it open and unjoined and
sleeps on it alone. -/
theorem joins (begins : system.kernel.scene.Joinable) {index : Nat}
    (calls : (steps m system).Calls thread (.join index)) (h : m < count) :
    ∃ point, (steps m system).kernel.joins[index]? = some point ∧
      (point.done = true ∧
        (∃ code, (steps (m + 1) system).contexts.get? thread = some (.ofCode code)) ∨
        point.done = false ∧ (steps (m + 1) system).Joining index point thread ∧
          ∃ call code, (steps (m + 1) system).contexts.get? thread =
            some { call := some call, code }) := by
  have orderly := course.orderly m (Nat.le_of_lt h)
  have housed := course.housed m (Nat.le_of_lt h)
  obtain ⟨rfl, rest, calling⟩ := calls
  have advance := course.advance h calling (.inr nofun)
  obtain ⟨code, progress, scene, outcome, lands⟩ := orderly.of_calls advance ⟨rfl, rest, calling⟩
  cases outcome with
  | quiet plain => cases plain
  | join joins =>
    obtain ⟨stage, same⟩ := lands.scene_eq
    cases joins with
    | late made past =>
      cases lands with
      | done shows contexts =>
        exact ⟨_, made, .inl ⟨past, code, by rw [contexts, Directory.get?_set, if_pos rfl]⟩⟩
    | @waits point queue thread saved runs made on live first =>
      have nobody := (course.joinable begins (Nat.le_of_lt h)).unjoined index point made on first
      have there : (steps (m + 1) system).kernel.scene.joins[index]? =
          some { point with joined := true } := by
        rw [same]
        simp [Scene.park, Scene.joined, made]
      have waits : (steps (m + 1) system).kernel.scene.ledger.waiters point.queue = [thread] := by
        rw [same]
        refine (Ledger.waiters_join _ _ _ _ live).trans ?_
        rw [if_pos rfl, nobody]
        rfl
      have acts : (steps m system).current = thread := Scene.current_of_running runs
      have here : thread ∈ (steps (m + 1) system).kernel.scene.ledger.waiters point.queue := by
        simp [waits]
      have asleep := (course.orderly (m + 1) h).settled.asleep_of_waiters here
      refine ⟨point, made, .inr ⟨on, ⟨there, acts ▸ waits, acts ▸ asleep⟩, ?_⟩⟩
      cases lands with
      | switched shows contexts =>
        exact ⟨_, _, by rw [contexts, Directory.get?_set, if_pos rfl]⟩

/-- Whoever sleeps on a join point sleeps on until the target exits, and is readied by that. -/
theorem joining (begins : system.kernel.scene.Joinable)
    (legal : ∀ driver call, rules driver call = true → call.orderly driver = true) {index : Nat}
    {point : Join} (on : point.done = false) (h : m < count)
    (joining : (steps m system).Joining index point thread) :
    (steps (m + 1) system).Joining index point thread ∨
      (steps m system).Calls point.target (.joinExit index) ∧
        (steps (m + 1) system).machine.ready = (steps m system).machine.ready ++ [thread] ∧
          (steps (m + 1) system).machine.status? thread ≠ some .blocked := by
  have orderly := course.orderly m (Nat.le_of_lt h)
  have housed := course.housed m (Nat.le_of_lt h)
  rcases course.moves m h with advance | ⟨-, same⟩
  · cases housed.attends orderly advance (course.room m h) joining.there on with
    | spared there spares =>
      have waits := spares.waiters.trans joining.waits
      refine .inl ⟨there, waits, ?_⟩
      have here : thread ∈ (steps (m + 1) system).kernel.scene.ledger.waiters point.queue := by
        simp [waits]
      exact (course.orderly (m + 1) h).settled.asleep_of_waiters here
    | joined _ first => cases first
    | exited exits target =>
      have acts : (steps m system).current = point.target := target
      rw [acts] at exits
      obtain ⟨joiner, exited⟩ := course.exits begins legal joining.there exits (Nat.le_of_lt h)
      obtain rfl : joiner = some thread := by
        have waited := joining.waits.symm.trans exited.waited
        cases joiner with
        | none => cases waited
        | some joiner =>
          cases waited
          rfl
      refine .inr ⟨exits, exited.ready, fun asleep => ?_⟩
      cases asleep.symm.trans (exited.woken thread rfl)
  · rw [same]
    exact .inl joining

/-- What becomes of a call of `join` that has switched away. -/
theorem joined (begins : system.kernel.scene.Joinable)
    (legal : ∀ driver call, rules driver call = true → call.orderly driver = true) {index : Nat}
    {rest : List Code} {first : Nat}
    (underway : Underway system thread (.join index) rest first n) (bound : n ≤ count) :
    ∃ point, (steps first system).kernel.joins[index]? = some point ∧ point.done = false ∧
      Joined system index point thread first n := by
  have order := underway.order
  obtain ⟨point, made, sleeps⟩ := course.joins begins ⟨underway.caller, rest, underway.calls⟩
    (show first < count by omega)
  obtain ⟨on, begun, -⟩ := sleeps.resolve_left fun ⟨_, code, back⟩ => by
    obtain ⟨owed, away⟩ := underway.within (first + 1) (Nat.lt_succ_self first) order
    cases back.symm.trans away
  refine ⟨point, made, on, ?_⟩
  have stays : ∀ k, first < k → k < n → (steps k system).machine.status? thread ≠ some .blocked →
      (steps (k + 1) system).machine.status? thread ≠ some .blocked := by
    intro k late early awake
    have off := course.absent underway rfl bound late early
    rcases course.moves k (by omega) with advance | ⟨-, same⟩
    · exact (course.orderly k (by omega)).awake advance off.symm awake
    · rw [same]
      exact awake
  have goes : ∀ k, first < k → k < n → (steps k system).Joining index point thread →
      (steps (k + 1) system).Joining index point thread ∨
        ((steps k system).Calls point.target (.joinExit index) ∧
          (steps (k + 1) system).machine.ready = (steps k system).machine.ready ++ [thread]) ∧
        (steps (k + 1) system).machine.status? thread ≠ some .blocked := fun k late early sleeps =>
    (course.joining begins legal on (by omega) sleeps).imp_right and_assoc.mpr
  refine (phases order begun goes stays).imp_right ?_
  rintro ⟨m, late, early, ⟨calls, ready⟩, sleeps, awake⟩
  exact ⟨m, late, early, calls, ready, sleeps, awake⟩

/-- No call of `join` returns before the target has called `exit`. -/
theorem exited_of_returns (begins : system.kernel.scene.Joinable) (empty : system.kernel.joins = [])
    (legal : ∀ driver call, rules driver call = true → call.orderly driver = true) {index : Nat}
    {rest : List Code} {first last : Nat}
    (returns : Returns system thread (.join index) rest first last)
    (bound : last < count) : ∃ point, (steps first system).kernel.joins[index]? = some point ∧
      ∃ m < last, (steps m system).Calls point.target (.joinExit index) := by
  rcases Nat.eq_or_lt_of_le returns.order with rfl | later
  · obtain ⟨point, made, past | ⟨-, -, call, code, away⟩⟩ :=
      course.joins begins ⟨returns.caller, rest, returns.calls⟩ bound
    · exact ⟨point, made, course.closed empty (Nat.le_of_lt bound) made past.1⟩
    · cases returns.back.symm.trans away
  · obtain ⟨point, made, -, sleeps | ⟨m, -, before, calls, -⟩⟩ :=
      course.joined begins legal (returns.underway later) (Nat.le_of_lt bound)
    · have asleep := (sleeps last later (Nat.le_refl last)).asleep
      have awake := Scene.current_awake (course.orderly last (Nat.le_of_lt bound)).sane
      rw [← returns.acts] at asleep
      exact absurd asleep awake
    · exact ⟨point, made, m, before, calls⟩

end Course

/-- Of a run in which the driver and the threads reach locks and join points by locks, conditions
and join points only and no violation has ended any context, after any number of steps, if there
have always been fewer queues than handles, of every join point:

* a call of `join` returns only after the target has called `exit`;
* a call of `join` that has switched away sleeps on the join point, alone, until the target exits;
  that readies it, and nothing else does before the call returns;
* one thread at most ever waits on the point, and lends to the target while that owns the queue, so
  that the target weighs no less;
* no call of `exit` fails because somebody is left on the queue;
* an exit of the target goes well and ends it. The handle is stale, there is one queue
  less, and the target is unknown, owns nothing and waits on nothing. Whoever waited owns
  nothing that it did not own and weighs what its donors give together, who are the same as
  before; the target is none of them. -/
theorem joins_last_until_exits (config : Config) (idleLimit : Nat) (script : List Operation)
    (kept : keepAll Request.orderly true script = true) (count : Nat)
    (calm : (steps count (start config idleLimit script)).untroubled = true)
    (room : ∀ m < count,
      (steps m (start config idleLimit script)).kernel.tables.queues.size < 4294967296)
    (index : Nat) :
    let system := start config idleLimit script
    let run := fun m => steps m system
    (∀ thread rest first last, last < count → system.Returns thread (.join index) rest first last →
      ∃ point, (run first).kernel.joins[index]? = some point ∧
        ∃ m < last, (run m).Calls point.target (.joinExit index)) ∧
    (∀ thread rest first n, n ≤ count → system.Underway thread (.join index) rest first n →
      ∃ point, (run first).kernel.joins[index]? = some point ∧ point.done = false ∧
        system.Joined index point thread first n) ∧
    (∀ m ≤ count, ∀ point, (run m).kernel.joins[index]? = some point → point.done = false →
      ((run m).kernel.scene.ledger.waiters point.queue).length ≤ 1 ∧
      ∀ joiner ∈ (run m).kernel.scene.ledger.waiters point.queue,
        (run m).kernel.scene.ledger.owner? point.queue = some point.target →
        ∃ lent weight, (∃ after, (run m).kernel.tables.effective joiner = .ok (lent, after)) ∧
          (∃ after, (run m).kernel.tables.effective point.target = .ok (weight, after)) ∧
          lent ≤ weight) ∧
    (∀ m ≤ count, ∀ thread, (run m).Calls thread (.joinExit index) → ∀ id waiters,
      ¬ (run (m + 1)).Raised (.closesWaitedOn id waiters)) ∧
    ∀ m ≤ count, ∀ point, (run m).kernel.joins[index]? = some point →
      (run m).Calls point.target (.joinExit index) →
      let before := (run m).kernel
      let after := (run (m + 1)).kernel
      (run (m + 1)).untroubled = true ∧
      (run (m + 1)).machine.status? point.target = some .finished ∧
      after.tables.queues.get? point.queue = none ∧
      after.tables.queues.size + 1 = before.tables.queues.size ∧
      after.tables.knows point.target = false ∧
      (∀ id, after.scene.ledger.owner? id ≠ some point.target ∧
        point.target ∉ after.scene.ledger.waiters id) ∧
      ∀ joiner ∈ before.scene.ledger.waiters point.queue,
        (∀ id, after.scene.ledger.owner? id = some joiner →
          before.scene.ledger.owner? id = some joiner) ∧
        ∃ donors weight, before.tables.WeighsWith joiner donors weight ∧
          after.tables.WeighsWith joiner donors weight ∧ point.target ∉ donors := by
  intro system run
  have legal : ∀ driver call, Request.orderly driver call = true → call.orderly driver = true :=
    fun _ _ => id
  have course : system.Course Request.orderly count :=
    course_of_untroubled legal (orderly_start config idleLimit kept)
      (housed_start config idleLimit script) calm room
  have begins : system.kernel.scene.Joinable := ⟨nofun, nofun, nofun⟩
  refine ⟨fun thread rest first last bound returns => ?_,
    fun thread rest first n bound underway => ?_,
    fun m bound point made on => ⟨?_, fun joiner waits owns => ?_⟩,
      fun m bound thread calls id waiters => ?_,
    fun m bound point made calls => ?_⟩
  · exact course.exited_of_returns begins rfl legal returns bound
  · exact course.joined begins legal underway bound
  · exact (course.joinable begins bound).single index point made on
  · have donates := (course.joinable begins bound).donates index point made on
    have lends : (run m).kernel.tables.ledger.Lends joiner point.target :=
      Ledger.lends_iff.mpr ⟨point.queue, donates, waits, owns⟩
    exact (course.orderly m bound).sound.le_of_lends lends
  · obtain rfl := calls.1
    by_cases target : ∃ point, (run m).kernel.joins[index]? = some point ∧
        (run m).current = point.target
    · obtain ⟨point, made, target⟩ := target
      obtain ⟨joiner, exited⟩ := course.exits begins legal made (target ▸ calls) bound
      exact exited.calm _
    · obtain ⟨rest, there⟩ := calls.2
      have step := step_of_calls (course.orderly m bound).on there
      have next : run (m + 1) = ((run m).step).getD (run m) := steps_succ m system
      rw [next, step]
      exact (course.orderly m bound).exit_refused calls
        (fun point made own => target ⟨point, made, own⟩) step id waiters
  · obtain ⟨joiner, exited⟩ := course.exits begins legal made calls bound
    have orderly := course.orderly m bound
    have target := calls.1
    have on := (course.housed m bound).first orderly index point made target
    obtain ⟨queue, live⟩ := Option.isSome_iff_exists.mp
      ((course.housed m bound).apart.join_live index point made on)
    refine ⟨untroubled_iff.mpr exited.calm, exited.ended, exited.stale, exited.size, exited.unknown,
      fun id => ⟨exited.not_owns live, exited.not_waits⟩, fun thread waits => ?_⟩
    have waited : joiner = some thread := by
      rw [exited.waited] at waits
      exact Option.mem_toList.mp waits
    exact ⟨fun id => exited.owned live, exited.weighs live orderly target waited⟩

/-- A thread is joined by another that holds a lock, for which a third one waits. -/
def partingScript : List Operation :=
  [.request .lock, .spawn [.request .yield, .request (.joinExit 0)],
    .request (.joinPoint (.id ⟨1⟩)),
    .spawn [.request (.lockAcquire 0), .request (.join 0), .request (.lockRelease 0)],
    .spawn [.request (.lockAcquire 0), .request (.lockRelease 0)], .run]

def parting : Simulation := start .default 10 partingScript

/-- The second thread joins the first in step 10 and has returned after step 17. -/
theorem parting_returns : parting.Returns ⟨2⟩ (.join 0)
    (Code.ofScript [.request (.lockRelease 0)]) 10 17 :=
  .of_inCall (by decide) (by decide +kernel) (by rfl) (by decide +kernel) (by decide +kernel)
    (by decide +kernel) (by decide +kernel)

/-- The first thread exits in step 15, while the second waits for it and the third for the
second. -/
theorem parting_exits : (steps 15 parting).Calls ⟨1⟩ (.joinExit 0) := ⟨by decide +kernel, _, rfl⟩

/-- The second thread waits until step 15 and lends to the first, is readied by its exit,
and returns. -/
theorem joins_last_until_exits_parting :
    let run := fun m => steps m parting
    let id : QueueId := ⟨1⟩
    (∃ point, (run 10).kernel.joins[0]? = some point ∧
      ∃ m < 17, (run m).Calls point.target (.joinExit 0)) ∧
    parting.Joined 0 ⟨id, ⟨1⟩, false, false⟩ ⟨2⟩ 10 17 ∧
    ((run 15).kernel.scene.ledger.waiters id = [⟨2⟩] ∧
      ∃ lent weight, (∃ after, (run 15).kernel.tables.effective ⟨2⟩ = .ok (lent, after)) ∧
        (∃ after, (run 15).kernel.tables.effective ⟨1⟩ = .ok (weight, after)) ∧ lent ≤ weight) ∧
    ¬ (run 16).Raised (.closesWaitedOn id 1) ∧
    (run 16).untroubled = true ∧ (run 16).kernel.tables.knows ⟨1⟩ = false ∧
    ∃ donors weight, (run 15).kernel.tables.WeighsWith ⟨2⟩ donors weight ∧
      (run 16).kernel.tables.WeighsWith ⟨2⟩ donors weight ∧ ⟨1⟩ ∉ donors := by
  intro run id
  obtain ⟨returned, calls, lends, refused, exits⟩ :=
    joins_last_until_exits .default 10 partingScript
    (by decide +kernel) 18 (by decide +kernel) (by decide +kernel) 0
  have before : (run 10).kernel.joins[0]? = some ⟨id, ⟨1⟩, false, false⟩ := by decide +kernel
  have made : (run 15).kernel.joins[0]? = some ⟨id, ⟨1⟩, true, false⟩ := by decide +kernel
  have waiters : (run 15).kernel.scene.ledger.waiters id = [⟨2⟩] := by decide +kernel
  have waits : (⟨2⟩ : ThreadId) ∈ (run 15).kernel.scene.ledger.waiters id := by simp [waiters]
  obtain ⟨point, there, -, joined⟩ :=
    calls _ _ _ _ (by decide) (parting_returns.underway (by decide))
  cases before.symm.trans there
  obtain ⟨calm, -, -, -, unknown, -, weighs⟩ := exits 15 (by decide) _ made parting_exits
  refine ⟨returned _ _ _ _ (by decide) parting_returns, joined, ⟨waiters, ?_⟩,
    refused 15 (by decide) _ parting_exits id 1, calm, unknown, (weighs _ waits).2⟩
  exact (lends 15 (by decide) _ made rfl).2 _ waits (by decide +kernel)

end Simulation

end Turnstile
