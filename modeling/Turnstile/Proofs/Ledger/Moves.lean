import Turnstile.Proofs.Ledger.Basic

/-!
# Moves of a ledger

The scheduler's operations as what they do to a ledger in the end. Ownership and waiting are
written down twice, in the queue and in the thread's record; a move writes both.

* **Reads**: `Ledger.owner?`, `Ledger.waiters` and `Ledger.donates` say what a handle reaches,
  and nothing where it reaches no queue.
* **Moves**: a queue is placed, closed, vacated by its owner or given to one; a thread joins the
  waiters, is withdrawn from them, or is dismissed altogether.
* **Reads after moves** are given by one lemma for each pair.
-/

namespace Turnstile.Ledger

/-! ## What a handle reaches -/

/-- The owner of the queue behind a handle. -/
def owner? (ledger : Ledger) (id : QueueId) : Option ThreadId :=
  (ledger.queue? id).bind (·.owner)

/-- The waiters of the queue behind a handle. -/
def waiters (ledger : Ledger) (id : QueueId) : List ThreadId :=
  ((ledger.queue? id).map (·.waiting)).getD []

/-- Whether the queue behind a handle donates. -/
def donates (ledger : Ledger) (id : QueueId) : Bool :=
  ((ledger.queue? id).map (·.donation)).getD false

section Reads

variable {ledger : Ledger} {id : QueueId} {queue : Queue} (h : ledger.queue? id = some queue)
include h

theorem owner?_of_queue? : ledger.owner? id = queue.owner := by
  simp [owner?, h]

theorem waiters_of_queue? : ledger.waiters id = queue.waiting := by
  simp [waiters, h]

theorem donates_of_queue? : ledger.donates id = queue.donation := by
  simp [donates, h]

end Reads

/-! ## Moves -/

/-- No record lists the queue any more. -/
def strip (ledger : Ledger) (id : QueueId) : Ledger :=
  { ledger with record := fun thread => (ledger.record thread).detach id }

/-- The queue has no owner any more. -/
def vacate (ledger : Ledger) (id : QueueId) : Ledger :=
  (ledger.strip id).alter id fun queue => { queue with owner := none }

/-- The queue belongs to `thread` and to nobody else. -/
def install (ledger : Ledger) (id : QueueId) (thread : ThreadId) : Ledger :=
  { ledger.alter id fun queue => { queue with owner := some thread } with
    record := fun other =>
      if thread = other then (ledger.record other).attach id
      else (ledger.record other).detach id }

/-- The handle reaches a queue that it did not reach before. -/
def place (ledger : Ledger) (id : QueueId) (queue : Queue) : Ledger :=
  { ledger with queue? := fun other => if other = id then some queue else ledger.queue? other }

/-- The handle reaches nothing any more. -/
def close (ledger : Ledger) (id : QueueId) : Ledger :=
  { ledger.strip id with
    queue? := fun other => if other = id then none else ledger.queue? other }

/-- The thread waits at the end of the queue, under a new stamp. -/
def join (ledger : Ledger) (id : QueueId) (thread : ThreadId) : Ledger :=
  (Ledger.alter { ledger with stamp := ledger.stamp + 1 } id fun queue =>
      { queue with waiting := queue.waiting ++ [thread] }).write thread
    fun state => { state with waitingOn := some id, enqueuedAt := ledger.stamp + 1 }

/-- The thread waits on the queue no more. -/
def withdraw (ledger : Ledger) (id : QueueId) (thread : ThreadId) : Ledger :=
  (ledger.alter id fun queue => { queue with waiting := queue.waiting.erase thread }).write
    thread fun state => { state with waitingOn := none }

/-- The queue belongs to the waiter that has been chosen, which waits no more; where nobody was
chosen it has no owner. -/
def handOn (ledger : Ledger) (id : QueueId) : (winner : Option ThreadId) → Ledger
  | none => ledger.vacate id
  | some winner => ((ledger.vacate id).withdraw id winner).install id winner

/-- The thread owns nothing, waits for nothing and has the record of a new one. -/
def dismiss (ledger : Ledger) (thread : ThreadId) : Ledger :=
  { ledger with
    queue? := fun id => (ledger.queue? id).map fun queue =>
      { queue with
        owner := if queue.owner = some thread then none else queue.owner
        waiting := queue.waiting.filter (· ≠ thread) }
    record := fun other =>
      if thread = other then .fresh ledger.policy.defaultWeight else ledger.record other }

/-- To take out a thread that does not wait changes nothing. -/
theorem filter_of_notMem {thread : ThreadId} {waiting : List ThreadId}
    (absent : thread ∉ waiting) : waiting.filter (· ≠ thread) = waiting :=
  List.filter_eq_self.mpr fun other ho => by
    simpa using fun he : other = thread => absent (he ▸ ho)

/-! ### What a handle reaches after a move -/

section Moved

variable (ledger : Ledger) (id other : QueueId) (thread : ThreadId)

theorem owner?_vacate :
    (ledger.vacate id).owner? other = if other = id then none else ledger.owner? other := by
  by_cases h : other = id <;> simp [owner?, vacate, strip, alter, h]

@[simp] theorem waiters_vacate : (ledger.vacate id).waiters other = ledger.waiters other := by
  by_cases h : other = id <;> simp [waiters, vacate, strip, alter, h, Function.comp_def]

@[simp] theorem donates_vacate : (ledger.vacate id).donates other = ledger.donates other := by
  by_cases h : other = id <;> simp [donates, vacate, strip, alter, h, Function.comp_def]

theorem owner?_install {queue : Queue} (live : ledger.queue? id = some queue) :
    (ledger.install id thread).owner? other =
      if other = id then some thread else ledger.owner? other := by
  by_cases h : other = id <;> simp [owner?, install, alter, h, live]

@[simp] theorem waiters_install :
    (ledger.install id thread).waiters other = ledger.waiters other := by
  by_cases h : other = id <;> simp [waiters, install, alter, h, Function.comp_def]

@[simp] theorem donates_install :
    (ledger.install id thread).donates other = ledger.donates other := by
  by_cases h : other = id <;> simp [donates, install, alter, h, Function.comp_def]

theorem owner?_place (queue : Queue) : (ledger.place id queue).owner? other =
    if other = id then queue.owner else ledger.owner? other := by
  by_cases h : other = id <;> simp [owner?, place, h]

theorem waiters_place (queue : Queue) : (ledger.place id queue).waiters other =
    if other = id then queue.waiting else ledger.waiters other := by
  by_cases h : other = id <;> simp [waiters, place, h]

theorem owner?_close :
    (ledger.close id).owner? other = if other = id then none else ledger.owner? other := by
  by_cases h : other = id <;> simp [owner?, close, h]

theorem waiters_close :
    (ledger.close id).waiters other = if other = id then [] else ledger.waiters other := by
  by_cases h : other = id <;> simp [waiters, close, h]

@[simp] theorem owner?_join : (ledger.join id thread).owner? other = ledger.owner? other := by
  by_cases h : other = id
  · cases hq : ledger.queue? id <;> simp [owner?, join, write, alter, h, hq]
  · simp [owner?, join, write, alter, h]

theorem waiters_join {queue : Queue} (live : ledger.queue? id = some queue) :
    (ledger.join id thread).waiters other =
      if other = id then ledger.waiters id ++ [thread] else ledger.waiters other := by
  by_cases h : other = id <;> simp [waiters, join, write, alter, h, live]

@[simp] theorem donates_join :
    (ledger.join id thread).donates other = ledger.donates other := by
  by_cases h : other = id <;> simp [donates, join, write, alter, h, Function.comp_def]

@[simp] theorem owner?_withdraw :
    (ledger.withdraw id thread).owner? other = ledger.owner? other := by
  by_cases h : other = id
  · cases hq : ledger.queue? id <;> simp [owner?, withdraw, write, alter, h, hq]
  · simp [owner?, withdraw, write, alter, h]

theorem waiters_withdraw : (ledger.withdraw id thread).waiters other =
    if other = id then (ledger.waiters id).erase thread else ledger.waiters other := by
  by_cases h : other = id
  · cases hq : ledger.queue? id <;> simp [waiters, withdraw, write, alter, h, hq]
  · simp [waiters, withdraw, write, alter, h]

@[simp] theorem donates_withdraw :
    (ledger.withdraw id thread).donates other = ledger.donates other := by
  by_cases h : other = id <;> simp [donates, withdraw, write, alter, h, Function.comp_def]

theorem owner?_handOn {queue : Queue} (live : ledger.queue? id = some queue)
    (winner : Option ThreadId) : (ledger.handOn id winner).owner? other =
      if other = id then winner else ledger.owner? other := by
  cases winner with
  | none => exact owner?_vacate ledger id other
  | some winner =>
    have live' : ((ledger.vacate id).withdraw id winner).queue? id =
        some { queue with owner := none, waiting := queue.waiting.erase winner } := by
      simp [withdraw, write, vacate, strip, alter, live]
    rw [handOn, owner?_install _ _ _ _ live', owner?_withdraw, owner?_vacate]
    split <;> rfl

theorem waiters_handOn (winner : Option ThreadId) : (ledger.handOn id winner).waiters other =
    if other = id then winner.elim (ledger.waiters id) (ledger.waiters id).erase
    else ledger.waiters other := by
  cases winner with
  | none =>
    rw [handOn, waiters_vacate]
    split
    · rename_i same
      rw [same]
      rfl
    · rfl
  | some winner =>
    rw [handOn, waiters_install, waiters_withdraw, waiters_vacate, waiters_vacate]
    rfl

@[simp] theorem donates_handOn (winner : Option ThreadId) :
    (ledger.handOn id winner).donates other = ledger.donates other := by
  cases winner <;> simp [handOn]

theorem queue?_handOn {queue : Queue} (live : ledger.queue? id = some queue)
    (winner : Option ThreadId) : (ledger.handOn id winner).queue? other =
      if other = id then
        some { queue with
          owner := winner
          waiting := winner.elim queue.waiting queue.waiting.erase }
      else ledger.queue? other := by
  by_cases here : other = id
  · cases winner <;> simp [handOn, install, withdraw, write, vacate, strip, alter, here, live]
  · cases winner <;> simp [handOn, install, withdraw, write, vacate, strip, alter, here]

theorem owner?_dismiss : (ledger.dismiss thread).owner? other =
    if ledger.owner? other = some thread then none else ledger.owner? other := by
  cases hq : ledger.queue? other <;> simp [owner?, dismiss, hq]

theorem waiters_dismiss :
    (ledger.dismiss thread).waiters other = (ledger.waiters other).filter (· ≠ thread) := by
  cases hq : ledger.queue? other <;> simp [waiters, dismiss, hq]

@[simp] theorem donates_dismiss :
    (ledger.dismiss thread).donates other = ledger.donates other := by
  cases hq : ledger.queue? other <;> simp [donates, dismiss, hq]

/-! ### Live handles after a move -/

theorem isSome_alter (f : Queue → Queue) :
    ((ledger.alter id f).queue? other).isSome = (ledger.queue? other).isSome := by
  by_cases h : other = id <;> simp [alter, h]

theorem isSome_install :
    ((ledger.install id thread).queue? other).isSome = (ledger.queue? other).isSome :=
  isSome_alter ledger id other _

theorem isSome_join :
    ((ledger.join id thread).queue? other).isSome = (ledger.queue? other).isSome :=
  isSome_alter _ id other _

theorem isSome_handOn (winner : Option ThreadId) :
    ((ledger.handOn id winner).queue? other).isSome = (ledger.queue? other).isSome := by
  cases winner with
  | none => exact isSome_alter (ledger.strip id) id other _
  | some winner =>
    rw [handOn, isSome_install]
    exact (isSome_alter (ledger.vacate id) id other _).trans
      (isSome_alter (ledger.strip id) id other _)

theorem isSome_dismiss :
    ((ledger.dismiss thread).queue? other).isSome = (ledger.queue? other).isSome := by
  simp [dismiss]

/-! ### Records after a move -/

theorem record_install (u : ThreadId) : (ledger.install id thread).record u =
    if thread = u then (ledger.record u).attach id else (ledger.record u).detach id :=
  rfl

theorem record_join (u : ThreadId) : (ledger.join id thread).record u =
    if thread = u then
      { ledger.record u with waitingOn := some id, enqueuedAt := ledger.stamp + 1 }
    else ledger.record u :=
  rfl

theorem record_withdraw (u : ThreadId) : (ledger.withdraw id thread).record u =
    if thread = u then { ledger.record u with waitingOn := none } else ledger.record u :=
  rfl

theorem record_dismiss (u : ThreadId) : (ledger.dismiss thread).record u =
    if thread = u then .fresh ledger.policy.defaultWeight else ledger.record u :=
  rfl

theorem record_handOn (winner : Option ThreadId) (u : ThreadId) :
    (ledger.handOn id winner).record u =
      if winner = some u then ({ (ledger.record u).detach id with waitingOn := none }).attach id
      else (ledger.record u).detach id := by
  cases winner with
  | none => rfl
  | some winner =>
    rw [handOn, record_install, record_withdraw]
    by_cases h : winner = u
    · simp [h, vacate, alter, strip]
    · rw [if_neg h, if_neg h, if_neg fun same => h (Option.some.inj same)]
      exact ThreadState.detach_of_notMem fun own => (ThreadState.mem_owned_detach.mp own).2 rfl

theorem owned_handOn (winner : Option ThreadId) (u : ThreadId) :
    ((ledger.handOn id winner).record u).owned =
      (ledger.record u).owned.filter (· ≠ id) ++ if winner = some u then [id] else [] := by
  rw [record_handOn]
  split
  · exact ThreadState.owned_attach fun own => (ThreadState.mem_owned_detach.mp own).2 rfl
  · exact (List.append_nil _).symm

@[simp] theorem base_handOn (winner : Option ThreadId) (u : ThreadId) :
    ((ledger.handOn id winner).record u).base = (ledger.record u).base := by
  rw [record_handOn]
  split
  · exact ThreadState.base_attach id _
  · rfl

@[simp] theorem enqueuedAt_handOn (winner : Option ThreadId) (u : ThreadId) :
    ((ledger.handOn id winner).record u).enqueuedAt = (ledger.record u).enqueuedAt := by
  rw [record_handOn]
  split
  · exact ThreadState.enqueuedAt_attach id _
  · rfl

theorem waitingOn_handOn (winner : Option ThreadId) (u : ThreadId) :
    ((ledger.handOn id winner).record u).waitingOn =
      if winner = some u then none else (ledger.record u).waitingOn := by
  rw [record_handOn]
  split
  · exact ThreadState.waitingOn_attach id _
  · rfl

theorem policy_handOn (winner : Option ThreadId) :
    (ledger.handOn id winner).policy = ledger.policy := by
  cases winner <;> rfl

theorem stamp_handOn (winner : Option ThreadId) :
    (ledger.handOn id winner).stamp = ledger.stamp := by
  cases winner <;> rfl

@[simp] theorem owned_join (u : ThreadId) :
    ((ledger.join id thread).record u).owned = (ledger.record u).owned := by
  rw [record_join]
  split <;> rfl

@[simp] theorem owned_withdraw (u : ThreadId) :
    ((ledger.withdraw id thread).record u).owned = (ledger.record u).owned := by
  rw [record_withdraw]
  split <;> rfl

@[simp] theorem waitingOn_install (u : ThreadId) :
    ((ledger.install id thread).record u).waitingOn = (ledger.record u).waitingOn := by
  rw [record_install]
  split
  · exact ThreadState.waitingOn_attach id _
  · rfl

/-! ### Moves look at no weight kept -/

theorem attach_bare (state : ThreadState) : (state.attach id).bare = state.bare.attach id := by
  unfold ThreadState.attach
  by_cases h : id ∈ state.owned <;> simp [ThreadState.bare, h]

theorem bare_join : (ledger.join id thread).bare = ledger.bare.join id thread := by
  refine Ledger.ext rfl rfl rfl (funext fun other => ?_)
  show ThreadState.bare (if thread = other then _ else _) = if thread = other then _ else _
  split <;> rfl

theorem bare_withdraw : (ledger.withdraw id thread).bare = ledger.bare.withdraw id thread := by
  refine Ledger.ext rfl rfl rfl (funext fun other => ?_)
  show ThreadState.bare (if thread = other then _ else _) = if thread = other then _ else _
  split <;> rfl

theorem bare_install : (ledger.install id thread).bare = ledger.bare.install id thread := by
  refine Ledger.ext rfl rfl rfl (funext fun other => ?_)
  show ThreadState.bare (if thread = other then _ else _) = if thread = other then _ else _
  split
  · exact attach_bare id _
  · rfl

theorem bare_handOn (winner : Option ThreadId) :
    (ledger.handOn id winner).bare = ledger.bare.handOn id winner := by
  cases winner with
  | none => rfl
  | some winner =>
    rw [handOn, bare_install, bare_withdraw]
    rfl

theorem bare_dismiss : (ledger.dismiss thread).bare = ledger.bare.dismiss thread := by
  refine Ledger.ext rfl rfl rfl (funext fun other => ?_)
  show ThreadState.bare (if thread = other then _ else _) = if thread = other then _ else _
  split <;> rfl

end Moved

end Turnstile.Ledger
