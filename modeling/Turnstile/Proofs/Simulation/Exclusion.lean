import Turnstile.Proofs.Simulation.Holding

/-!
# Mutual exclusion with direct hand-off

What a whole run says of its locks. A thread is inside the critical section of a lock
(`Simulation.Inside`) from the return of a call that obtains the lock (`Simulation.Returns`) until
it calls something that gives the lock up, or ends.

* Whoever is inside owns the lock's queue (`Course.inside_holds`), so that two threads are never
  inside together.
* Giving up a lock that others wait for hands it to one of them, who owns it until it runs
  (`Course.handed`).
* If nobody ends while holding a lock, a lock that others wait for has an owner who has not ended
  (`Course.owners_alive`).

`locks_exclude` says all this of every run of scripts that reach locks by locks and conditions only.
-/

namespace Turnstile

/-- Orderly requests other than those by which a context drops a record and goes on. -/
def Request.steady (driver : Bool) : Request → Bool
  | exitThread _ => false
  | request => request.orderly driver

theorem Request.orderly_of_steady {driver : Bool} {request : Request}
    (steady : request.steady driver = true) : request.orderly driver = true := by
  unfold Request.steady at steady
  split at steady
  · cases steady
  · exact steady

namespace Simulation

variable {rules : Bool → Request → Bool} {system : Simulation} {thread : ThreadId} {lock : Lock}
  {count m : Nat}

/-! ## What happens in a run -/

/-- A request that the thread makes in step `first` of the system's run returns in step `last`, with
`rest` to do after it. -/
structure Returns (system : Simulation) (thread : ThreadId) (request : Request) (rest : List Code)
    (first last : Nat) : Prop where
  order : first ≤ last
  caller : (steps first system).current = thread
  calls : (steps first system).contexts.get? thread =
    some (.ofCode (.operation (.request request) :: rest))
  within : ∀ m, first < m → m ≤ last → ∃ owed, (steps m system).contexts.get? thread =
    some { call := some (request.name, owed), code := rest }
  acts : (steps last system).current = thread
  back : (steps (last + 1) system).contexts.get? thread = some (.ofCode rest)

/-- After `count` steps the thread has not ended, a request of it that obtains the lock has
returned, and it has made no request since that gives the lock up. -/
def Inside (system : Simulation) (count : Nat) (thread : ThreadId) (lock : Lock) : Prop :=
  (steps count system).machine.status? thread ≠ some .finished ∧
    ∃ request rest first last, last < count ∧ Returns system thread request rest first last ∧
      request.obtained (steps first system).kernel.scene = some lock ∧
      ∀ m, last < m → m < count → ∀ later, (steps m system).Calls thread later →
        later.released (steps m system).kernel.scene ≠ some lock

/-- Nothing has gone wrong in the first steps of a run. -/
structure Course (rules : Bool → Request → Bool) (system : Simulation) (count : Nat) : Prop where
  orderly : ∀ m ≤ count, (steps m system).Orderly rules
  housed : ∀ m ≤ count, (steps m system).Housed
  /-- A step advances the system, or the run is at its end. -/
  moves : ∀ m < count, Advance rules (steps m system) (steps (m + 1) system) ∨
    (steps m system).step = none ∧ steps (m + 1) system = steps m system
  room : ∀ m < count, (steps m system).kernel.tables.queues.size < 4294967296

theorem course_of_untroubled
    (legal : ∀ driver call, rules driver call = true → call.orderly driver = true)
    (orderly : system.Orderly rules) (housed : system.Housed)
    (calm : (steps count system).untroubled = true)
    (room : ∀ m < count, (steps m system).kernel.tables.queues.size < 4294967296) :
    system.Course rules count := by
  have unspoilt : ∀ m ≤ count, ¬ Spoilt (fun _ => True) (steps m system) :=
    fun m h spoilt => (spoilt.later h).troubled calm
  have both : ∀ m ≤ count, (steps m system).Orderly rules ∧ (steps m system).Housed := fun m h =>
    (housed_or_spoilt legal (fun _ _ => trivial) orderly housed m fun k hk =>
      room k (Nat.lt_of_lt_of_le hk h)).resolve_right (unspoilt m h)
  refine ⟨fun m h => (both m h).1, fun m h => (both m h).2, fun m h => ?_, room⟩
  obtain ⟨orderly, housed⟩ := both m (Nat.le_of_lt h)
  have unspoilt := unspoilt (m + 1) h
  rw [steps_succ] at unspoilt ⊢
  cases next : (steps m system).step with
  | none => exact .inr ⟨rfl, rfl⟩
  | some after =>
    rw [next] at unspoilt
    have trusts : ∀ name owed rest, (steps m system).contexts.get? (steps m system).current =
        some { call := some (name, owed), code := rest } →
        (steps m system).kernel.scene.Trusts owed :=
      fun name owed rest there => housed.trusts orderly there
    have cases := step_cases orderly (fun _ _ => trivial) legal (.inr trusts) next
    exact .inl (cases.resolve_right unspoilt).1

/-- A context with something to do does it when it has the processor. -/
theorem Orderly.step_ne_none (orderly : system.Orderly rules) {context : Context}
    (there : system.contexts.get? system.current = some context)
    (busy : context.call ≠ none ∨ context.code ≠ []) : system.step ≠ none := by
  unfold step
  rw [orderly.on]
  obtain ⟨call, code⟩ := context
  simp only [Bool.false_eq_true, if_false, there]
  cases call with
  | some call => simp
  | none =>
    cases code with
    | nil => exact absurd rfl (busy.resolve_left (absurd rfl))
    | cons piece rest => simp

namespace Course

variable (course : system.Course rules count)
include course

theorem advance (h : m < count) {context : Context}
    (there : (steps m system).contexts.get? (steps m system).current = some context)
    (busy : context.call ≠ none ∨ context.code ≠ []) :
    Advance rules (steps m system) (steps (m + 1) system) :=
  (course.moves m h).resolve_right fun rests =>
    (course.orderly m (Nat.le_of_lt h)).step_ne_none there busy rests.1

theorem meets (h : m < count) : Scene.Meets (steps m system).Gives (steps m system).Leaves
    (steps m system).kernel.scene (steps (m + 1) system).kernel.scene := by
  have housed := course.housed m (Nat.le_of_lt h)
  rcases course.moves m h with advance | ⟨-, same⟩
  · exact housed.meets (course.orderly m (Nat.le_of_lt h)) advance (course.room m h)
  · rw [same]
    exact .refl housed.apart

/-- Nobody comes back from their end. -/
theorem finished {later : Nat} (order : m ≤ later) (bound : later ≤ count)
    (past : (steps m system).machine.status? thread = some .finished) :
    (steps later system).machine.status? thread = some .finished := by
  induction later, order using Nat.le_induction with
  | base => exact past
  | succ later _ ih =>
    have ih := ih (Nat.le_of_lt bound)
    rcases course.moves later bound with advance | ⟨-, same⟩
    · exact (course.orderly later (Nat.le_of_lt bound)).finished advance ih
    · rw [same]
      exact ih

theorem made {later : Nat} (order : m ≤ later) (bound : later ≤ count)
    (made : lock ∈ (steps m system).kernel.locks) : lock ∈ (steps later system).kernel.locks := by
  induction later, order using Nat.le_induction with
  | base => exact made
  | succ later _ ih => exact (course.meets bound).mem_locks (ih (Nat.le_of_lt bound))

/-! ## Whoever is inside owns the lock -/

/-- From the step in which a call that is to obtain a lock has switched away, the call is on its way
to that lock. -/
theorem awaits {request : Request} {rest : List Code} {first last : Nat}
    (returns : Returns system thread request rest first last)
    (obtained : request.obtained (steps first system).kernel.scene = some lock)
    (after : first < m) (before : m ≤ last) (bound : last ≤ count) :
    (steps m system).Awaits thread lock := by
  -- By induction on the steps since the call was made; that the thread is still in the
  -- call is given.
  induction m, after using Nat.le_induction with
  | base =>
    have h : first < count := by omega
    have there := returns.calls
    rw [← returns.caller] at there
    have advance := course.advance h there (.inr nofun)
    have obtains := (course.housed first (Nat.le_of_lt h)).calls_obtains
      (course.orderly first (Nat.le_of_lt h)) advance (course.room first h)
        ⟨rfl, rest, there⟩ obtained
    obtain ⟨owed, there⟩ := returns.within (first + 1) (Nat.lt_succ_self first) before
    rw [← returns.caller] at there ⊢
    exact obtains.1 _ _ _ there
  | succ m after ih =>
    have h : m < count := by omega
    have ih := ih (by omega)
    rcases course.moves m h with advance | ⟨-, same⟩
    · have housed := course.housed m (Nat.le_of_lt h)
      have made : lock ∈ (steps m system).kernel.locks :=
        course.made (by omega) (by omega)
          ((course.housed first (by omega)).apart.obtained obtained)
      have obtains := housed.awaits_obtains (course.orderly m (Nat.le_of_lt h)) advance
        (course.room m h) made ih
      obtain ⟨owed, there⟩ := returns.within (m + 1) (by omega) before
      exact obtains.1 _ _ _ there
    · rw [same]
      exact ih

/-- Whoever returns from a call that obtains a lock holds it. -/
theorem returns_holds {request : Request} {rest : List Code} {first last : Nat}
    (returns : Returns system thread request rest first last)
    (obtained : request.obtained (steps first system).kernel.scene = some lock)
    (bound : last < count) : (steps (last + 1) system).Holds thread lock := by
  have housed := course.housed last (Nat.le_of_lt bound)
  have orderly := course.orderly last (Nat.le_of_lt bound)
  rcases Nat.eq_or_lt_of_le returns.order with rfl | later
  · have there := returns.calls
    have back := returns.back
    rw [← returns.caller] at there back ⊢
    have advance := course.advance bound there (.inr nofun)
    exact (housed.calls_obtains orderly advance (course.room first bound) ⟨rfl, rest, there⟩
      obtained).2 rest back
  · have awaits := course.awaits returns obtained later (Nat.le_refl last) (Nat.le_of_lt bound)
    have made : lock ∈ (steps last system).kernel.locks :=
      course.made returns.order (Nat.le_of_lt bound)
        ((course.housed first (by omega)).apart.obtained obtained)
    obtain ⟨owed, there⟩ := returns.within last later (Nat.le_refl last)
    rw [← returns.acts] at there
    have advance := course.advance bound there (.inl nofun)
    exact (housed.awaits_obtains orderly advance (course.room last bound) made awaits).2
      returns.acts rest returns.back

/-- Whoever is inside the critical section of a lock holds it. -/
theorem inside_holds (steady : ∀ driver call, rules driver call = true →
      ∀ name, call ≠ .exitThread name) (inside : system.Inside count thread lock) :
    (steps count system).Holds thread lock := by
  obtain ⟨alive, request, rest, first, last, before, returns, obtained, keeps⟩ := inside
  have holds : ∀ m, last + 1 ≤ m → m ≤ count → (steps m system).Holds thread lock := by
    intro m after bound
    induction m, after using Nat.le_induction with
    | base => exact course.returns_holds returns obtained before
    | succ m after ih =>
      have ih := ih (Nat.le_of_lt bound)
      rcases course.moves m bound with advance | ⟨-, same⟩
      · exact (course.housed m (Nat.le_of_lt bound)).holds_advances
          (course.orderly m (Nat.le_of_lt bound)) advance (course.room m bound) steady ih
          (keeps m after bound) fun past => alive (course.finished bound (Nat.le_refl count) past)
      · rw [same]
        exact ih
  exact holds count before (Nat.le_refl count)

/-! ## Handing over -/

/-- Whoever owns a lock owns it until it runs. -/
theorem owned_until {later : Nat} (order : m ≤ later) (bound : later ≤ count)
    (made : lock ∈ (steps m system).kernel.locks)
    (owns : (steps m system).holder? lock = some thread)
    (absent : ∀ k, m ≤ k → k < later → (steps k system).current ≠ thread) :
    (steps later system).holder? lock = some thread := by
  induction later, order using Nat.le_induction with
  | base => exact owns
  | succ later order ih =>
    have ih := ih (Nat.le_of_lt bound) fun k after before => absent k after (by omega)
    have treats := (course.meets bound).treats lock (course.made order (Nat.le_of_lt bound) made)
    exact treats.owned thread (absent later order (Nat.lt_succ_self later)).symm ih

/-- If a lock is given up while others wait for it, one of them owns it next and until it runs, and
nobody returns with the lock meanwhile. -/
theorem handed (h : m < count) (gives : (steps m system).givesUp? = some lock)
    (waited : (steps m system).waiters lock ≠ []) :
    ∃ winner ∈ (steps m system).waiters lock, ∀ later, m < later → later ≤ count →
      (∀ k, m < k → k < later → (steps k system).current ≠ winner) →
      (steps later system).holder? lock = some winner ∧
        ∀ k, m < k → k < later → ∀ other request rest first,
          Returns system other request rest first k →
          request.obtained (steps first system).kernel.scene ≠ some lock := by
  obtain ⟨context, there, busy⟩ := busy_of_givesUp? gives
  have advance := course.advance h there busy
  have made := course.made (Nat.le_succ m) h
    ((course.housed m (Nat.le_of_lt h)).made_of_givesUp? gives)
  obtain ⟨winner, waits, next⟩ :=
    (course.orderly m (Nat.le_of_lt h)).hands_over advance gives waited
  have owned : ∀ later, m < later → later ≤ count →
      (∀ k, m < k → k < later → (steps k system).current ≠ winner) →
      (steps later system).holder? lock = some winner := fun later after bound absent =>
    course.owned_until after bound made next absent
  refine ⟨winner, waits, fun later after bound absent => ⟨owned later after bound absent, ?_⟩⟩
  intro k after before other request rest first returns obtained
  -- Whoever returned with the lock would own it next, and so be the winner, who has not run.
  have holds := course.returns_holds returns obtained (by omega)
  have wins := owned (k + 1) (by omega) (by omega) fun j hj hk => absent j hj (by omega)
  cases holds.owns.symm.trans wins
  exact absent k after before returns.acts

/-! ## Owners that are there -/

/-- If nobody ends while holding a lock, then whoever owns one has not ended, and nobody waits for a
lock without an owner. -/
theorem owners_alive (steady : ∀ driver call, rules driver call = true →
      ∀ name, call ≠ .exitThread name) (empty : system.kernel.locks = [])
    (guarded : ∀ m < count, ∀ thread, (steps m system).machine.status? thread ≠ some .finished →
      (steps (m + 1) system).machine.status? thread = some .finished →
      ∀ lock ∈ (steps m system).kernel.locks, (steps m system).holder? lock ≠ some thread)
    (bound : m ≤ count) : ∀ lock ∈ (steps m system).kernel.locks,
      ((steps m system).holder? lock = none → (steps m system).waiters lock = []) ∧
      ∀ thread, (steps m system).holder? lock = some thread →
        (steps m system).machine.status? thread ≠ some .finished := by
  induction m with
  | zero =>
    intro lock made
    have made : lock ∈ system.kernel.locks := made
    rw [empty] at made
    cases made
  | succ m ih =>
    have ih := ih (Nat.le_of_lt bound)
    have guarded := guarded m bound
    have orderly := course.orderly m (Nat.le_of_lt bound)
    have meets := course.meets bound
    rcases course.moves m bound with advance | ⟨-, same⟩
    · intro lock made
      rcases meets.fresh lock made with old | ⟨free, nobody⟩
      · obtain ⟨unheld, alive⟩ := ih lock old
        have treats := meets.treats lock old
        have awake := Scene.current_awake orderly.sane
        refine ⟨fun free => treats.held (fun leaves => ?_) unheld free, ?_⟩
        -- Whoever drops its record ends, so it owned no lock.
        · exact guarded _ orderly.alive (orderly.ended_of_leaves advance steady leaves) lock old
        -- An owner who has ended either had ended before, which owners and waiters have not, or
        -- ends in this very step and owned the lock already.
        · intro thread owns past
          rcases orderly.ended advance past with before | ⟨rfl, leaves | same⟩
          · rcases treats.owners thread owns with owned | ⟨rfl, -⟩ | waits
            · exact alive thread owned before
            · exact orderly.alive before
            · have asleep := orderly.settled.asleep_of_waiters waits
              cases asleep.symm.trans before
          · rcases treats.owners _ owns with owned | ⟨-, stays⟩ | waits
            · exact guarded _ orderly.alive past lock old owned
            · exact stays leaves
            · exact awake (orderly.settled.asleep_of_waiters waits)
          · rw [holder?, same] at owns
            exact guarded _ orderly.alive past lock old owns
      · refine ⟨fun _ => nobody, fun thread owns => ?_⟩
        cases free.symm.trans owns
    · rw [same]
      exact ih

end Course

/-- Of a run in which the driver and the threads reach locks by locks and conditions only and no
violation has ended any context, after any number of steps, if there have always been fewer queues
than handles:

* whoever is inside the critical section of a lock owns the lock's queue, and nobody else is inside;
* whoever has given up a lock that others waited for, by a request or by waiting again in a call
  that waits while a predicate holds, handed it to one of them, who owned it from the next step
  until it ran, and nobody returned with the lock meanwhile;
* if nobody has ended while holding a lock, each lock that others wait for has an owner who has not
  ended. -/
theorem locks_exclude (config : Config) (idleLimit : Nat) (script : List Operation)
    (kept : keepAll Request.steady true script = true) (count : Nat)
    (calm : (steps count (start config idleLimit script)).untroubled = true)
    (room : ∀ m < count,
      (steps m (start config idleLimit script)).kernel.tables.queues.size < 4294967296) :
    let system := start config idleLimit script
    let run := fun m => steps m system
    (∀ thread lock, system.Inside count thread lock →
      (run count).holder? lock = some thread ∧
        ∀ other, system.Inside count other lock → other = thread) ∧
    (∀ m < count, ∀ lock, (run m).givesUp? = some lock → (run m).waiters lock ≠ [] →
      ∃ winner ∈ (run m).waiters lock, ∀ later, m < later → later ≤ count →
        (∀ k, m < k → k < later → (run k).current ≠ winner) →
        (run later).holder? lock = some winner ∧
          ∀ k, m < k → k < later → ∀ other request rest first,
            system.Returns other request rest first k →
            request.obtained (run first).kernel.scene ≠ some lock) ∧
    ((∀ m < count, ∀ thread, (run m).machine.status? thread ≠ some .finished →
        (run (m + 1)).machine.status? thread = some .finished →
        ∀ lock ∈ (run m).kernel.locks, (run m).holder? lock ≠ some thread) →
      ∀ lock ∈ (run count).kernel.locks, (run count).waiters lock ≠ [] →
        ∃ owner, (run count).holder? lock = some owner ∧
          (run count).machine.status? owner ≠ some .finished) := by
  intro system run
  have steady : ∀ driver call, Request.steady driver call = true →
      ∀ name, call ≠ .exitThread name := by
    intro driver call h name same
    rw [same] at h
    cases h
  have course : system.Course Request.steady count :=
    course_of_untroubled (fun _ _ => Request.orderly_of_steady)
      (orderly_start config idleLimit kept) (housed_start config idleLimit script) calm room
  refine ⟨fun thread lock inside => ?_, fun m h lock gives waited => course.handed h gives waited,
    fun guarded lock made waited => ?_⟩
  · have owns := (course.inside_holds steady inside).owns
    refine ⟨owns, fun other inside' => ?_⟩
    have owns' := (course.inside_holds steady inside').owns
    exact Option.some.inj (owns'.symm.trans owns)
  · obtain ⟨unheld, alive⟩ := course.owners_alive steady rfl guarded (Nat.le_refl count) lock made
    cases owns : (run count).holder? lock with
    | none => exact absurd (unheld owns) waited
    | some owner => exact ⟨owner, rfl, alive owner owns⟩

/-- Where a thread stands is among what is said of all threads. -/
theorem mem_statuses {status : Status} (stands : system.machine.status? thread = some status) :
    (thread, status) ∈ system.statuses := by
  obtain ⟨state, there, rfl⟩ := Option.map_eq_some_iff.mp stands
  exact List.mem_map.mpr ⟨(thread, state), Directory.mem_toList_of_get? there, rfl⟩

/-- Two threads that pass a lock on: the second comes to wait for it while the first is inside. -/
def relayScript : List Operation :=
  [.request .lock,
    .spawn [.request (.lockAcquire 0), .request .yield, .request (.lockRelease 0)],
    .spawn [.request (.lockAcquire 0), .request .yield, .request (.lockRelease 0)],
    .run]

def relay : Simulation := start .default 10 relayScript

/-- The second thread asks for the lock in step 8 and has it after step 14. -/
theorem relay_returns : relay.Returns ⟨2⟩ (.lockAcquire 0)
    (Code.ofScript [.request .yield, .request (.lockRelease 0)]) 8 14 where
  order := by decide
  caller := by decide +kernel
  calls := by rfl
  within m after before := by
    have between : m = 9 ∨ m = 10 ∨ m = 11 ∨ m = 12 ∨ m = 13 ∨ m = 14 := by omega
    rcases between with rfl | rfl | rfl | rfl | rfl | rfl <;> exact ⟨_, rfl⟩
  acts := by decide +kernel
  back := by rfl

/-- In step 10 the first thread is inside and the second waits for the lock. In step 11 the lock is
handed over, and after step 14 the second thread is inside. -/
theorem locks_exclude_relay :
    (relay.Inside 15 ⟨2⟩ ⟨⟨0⟩⟩ ∧ (steps 15 relay).holder? ⟨⟨0⟩⟩ = some ⟨2⟩ ∧
      ∀ other, relay.Inside 15 other ⟨⟨0⟩⟩ → other = ⟨2⟩) ∧
    ((steps 11 relay).Calls ⟨1⟩ (.lockRelease 0) ∧ (steps 11 relay).waiters ⟨⟨0⟩⟩ = [⟨2⟩] ∧
      (steps 12 relay).holder? ⟨⟨0⟩⟩ = some ⟨2⟩ ∧ (steps 14 relay).holder? ⟨⟨0⟩⟩ = some ⟨2⟩) ∧
    (steps 11 relay).waiters ⟨⟨0⟩⟩ = [⟨2⟩] ∧ ∃ owner, (steps 11 relay).holder? ⟨⟨0⟩⟩ = some owner ∧
      (steps 11 relay).machine.status? owner ≠ some .finished := by
  have inside : relay.Inside 15 ⟨2⟩ ⟨⟨0⟩⟩ :=
    ⟨by decide +kernel, _, _, 8, 14, by decide, relay_returns, by decide +kernel,
      fun m after before => by omega⟩
  have calls : (steps 11 relay).Calls ⟨1⟩ (.lockRelease 0) := ⟨by decide +kernel, _, rfl⟩
  have waiters : (steps 11 relay).waiters ⟨⟨0⟩⟩ = [⟨2⟩] := by decide +kernel
  have nobody : ∀ m < 11, ∀ thread,
      (steps (m + 1) relay).machine.status? thread ≠ some .finished := by
    intro m h thread past
    have ended : ∀ m < 11, ∀ entry ∈ (steps (m + 1) relay).statuses, entry.2 ≠ .finished := by
      decide +kernel
    exact ended m h _ (mem_statuses past) rfl
  obtain ⟨owns, handed, -⟩ := locks_exclude .default 10 relayScript (by decide +kernel) 15
    (by decide +kernel) (by decide +kernel)
  obtain ⟨-, -, alive⟩ := locks_exclude .default 10 relayScript (by decide +kernel) 11
    (by decide +kernel) (by decide +kernel)
  obtain ⟨winner, waits, wins⟩ := handed 11 (by decide) ⟨⟨0⟩⟩ (by decide +kernel)
    (by decide +kernel)
  have second : winner = ⟨2⟩ := List.mem_singleton.mp (waiters ▸ waits)
  rw [second] at wins
  refine ⟨⟨inside, owns _ _ inside⟩, ⟨calls, waiters, ?_, ?_⟩, waiters, ?_⟩
  · exact (wins 12 (by decide) (by decide) fun k after before => by omega).1
  · have absent : ∀ k < 14, 11 < k → (steps k relay).current ≠ ⟨2⟩ := by decide +kernel
    exact (wins 14 (by decide) (by decide) fun k after before => absent k before after).1
  · exact alive (fun m h thread _ past => absurd past (nobody m h thread)) ⟨⟨0⟩⟩
      (by decide +kernel) (by decide +kernel)

end Simulation

end Turnstile
