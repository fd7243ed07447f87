import Turnstile.Proofs.Kernel.Settling

/-!
# How locks pass from hand to hand

What one operation does to the queue of any lock.

* **`Ledger.Passes`** lists all that can happen to it: it stays as it is, a free one is taken, its
  caller waits for it, its owner hands it to a waiter or leaves it free, or its owner's record is
  dropped.
* **`Scene.Apart`**: handles of locks, and of join points whose target has not exited, reach queues,
  and no two of them the same. It is kept as long as there is room for new handles.
* **`Scene.Meets`** is what every request and every task does on such a scene (`Outcome.meets`).
-/

namespace Turnstile

namespace Ledger

/-- What can happen to a lock's queue in one operation of `caller`. It changes hands only if the
operation gives the lock up (`gives`) or drops its caller's record (`drops`). -/
inductive Passes (caller : ThreadId) (gives drops : Prop) (id : QueueId) (before after : Ledger) :
    Prop
  | stays (owner : after.owner? id = before.owner? id)
    (waiters : after.waiters id = before.waiters id)
  | taken (on : ¬ drops) (free : before.owner? id = none) (owner : after.owner? id = some caller)
    (waiters : after.waiters id = before.waiters id)
  | joined {holder : ThreadId} (held : before.owner? id = some holder) (other : holder ≠ caller)
    (owner : after.owner? id = some holder)
    (waiters : after.waiters id = before.waiters id ++ [caller])
  | handed {winner : ThreadId} (gives : gives) (held : before.owner? id = some caller)
    (waits : winner ∈ before.waiters id) (owner : after.owner? id = some winner)
    (waiters : after.waiters id = (before.waiters id).erase winner)
  | freed (gives : gives) (held : before.owner? id = some caller) (nobody : before.waiters id = [])
    (owner : after.owner? id = none) (waiters : after.waiters id = [])
  | dropped (drops : drops) (held : before.owner? id = some caller) (owner : after.owner? id = none)
    (waiters : after.waiters id = before.waiters id)

theorem isSome_place {ledger : Ledger} {id other : QueueId} (queue : Queue)
    (live : (ledger.queue? other).isSome = true) :
    ((ledger.place id queue).queue? other).isSome = true := by
  unfold place
  dsimp only
  split
  · rfl
  · exact live

theorem ne_of_live {ledger : Ledger} {id other : QueueId} (free : ledger.queue? id = none)
    (live : (ledger.queue? other).isSome = true) : other ≠ id := by
  intro same
  rw [same, free] at live
  cases live

theorem Passes.of_queue? {caller : ThreadId} {gives drops : Prop} {id : QueueId}
    {before after : Ledger} (same : after.queue? id = before.queue? id) :
    Passes caller gives drops id before after :=
  .stays (by rw [owner?, same]; rfl) (by rw [waiters, same]; rfl)

/-- What was said of the queue before counts, not how it was written. -/
theorem Passes.congr {caller : ThreadId} {gives drops : Prop} {id : QueueId}
    {before mid after : Ledger} (passes : Passes caller gives drops id mid after)
    (owner : mid.owner? id = before.owner? id) (waiters : mid.waiters id = before.waiters id) :
    Passes caller gives drops id before after := by
  cases passes with
  | stays o w => exact .stays (o.trans owner) (w.trans waiters)
  | taken on free o w => exact .taken on (owner ▸ free) o (w.trans waiters)
  | joined held other o w => exact .joined (owner ▸ held) other o (waiters ▸ w)
  | handed gives held waits o w =>
    exact .handed gives (owner ▸ held) (waiters ▸ waits) o (waiters ▸ w)
  | freed gives held nobody o w => exact .freed gives (owner ▸ held) (waiters ▸ nobody) o w
  | dropped leaves held o w => exact .dropped leaves (owner ▸ held) o (w.trans waiters)

/-- Only its owner notices that a thread's record is dropped, if it waits nowhere. -/
theorem passes_dismiss {caller : ThreadId} {gives drops : Prop} {id : QueueId} {before : Ledger}
    (leaves : drops) (absent : caller ∉ before.waiters id) :
    Passes caller gives drops id before (before.dismiss caller) := by
  have waiters : (before.dismiss caller).waiters id = before.waiters id := by
    rw [waiters_dismiss, filter_of_notMem absent]
  by_cases held : before.owner? id = some caller
  · exact .dropped leaves held (by rw [owner?_dismiss, if_pos held]) waiters
  · exact .stays (by rw [owner?_dismiss, if_neg held]) waiters

/-- What a call of `caller` does to a lock's queue. Others keep what they have: an owner owns, and
whoever waits goes on waiting or becomes the owner. -/
structure Treats (caller : ThreadId) (gives drops : Prop) (id : QueueId) (before after : Ledger) :
    Prop where
  owned : ∀ thread, thread ≠ caller → before.owner? id = some thread →
    after.owner? id = some thread
  queued : ∀ thread, thread ≠ caller → thread ∈ before.waiters id →
    thread ∈ after.waiters id ∨ after.owner? id = some thread
  own : ¬ gives → ¬ drops → before.owner? id = some caller → after.owner? id = some caller
  owners : ∀ thread, after.owner? id = some thread → before.owner? id = some thread ∨
    thread = caller ∧ ¬ drops ∨ thread ∈ before.waiters id
  waiters : ∀ thread, thread ∈ after.waiters id → thread ∈ before.waiters id ∨ thread = caller
  /-- A queue with waiters does not lose its owner unless the owner's record is dropped. -/
  held : (drops → before.owner? id ≠ some caller) →
    (before.owner? id = none → before.waiters id = []) →
    after.owner? id = none → after.waiters id = []

variable {caller : ThreadId} {gives drops : Prop} {id : QueueId} {before mid after : Ledger}

theorem Passes.treats (passes : Passes caller gives drops id before after) :
    Treats caller gives drops id before after := by
  cases passes with
  | stays owner waiters =>
    exact
      { owned := fun thread _ h => owner.trans h
        queued := fun thread _ h => .inl (waiters ▸ h)
        own := fun _ _ h => owner.trans h
        owners := fun thread h => .inl (owner ▸ h)
        waiters := fun thread h => .inl (waiters ▸ h)
        held := fun _ nobody h => waiters.trans (nobody (owner ▸ h)) }
  | taken on free owner waiters =>
    exact
      { owned := fun thread _ h => by rw [free] at h; cases h
        queued := fun thread _ h => .inl (waiters ▸ h)
        own := fun _ _ _ => owner
        owners := fun thread h => by
          rw [owner] at h
          cases h
          exact .inr (.inl ⟨rfl, on⟩)
        waiters := fun thread h => .inl (waiters ▸ h)
        held := fun _ nobody _ => waiters.trans (nobody free) }
  | joined held other owner waiters =>
    exact
      { owned := fun thread _ h => owner.trans (held ▸ h)
        queued := fun thread _ h => .inl (by simp [waiters, h])
        own := fun _ _ h => owner.trans (held ▸ h)
        owners := fun thread h => .inl (held.trans (owner ▸ h))
        waiters := fun thread h => by simpa [waiters] using h
        held := fun _ _ h => by rw [owner] at h; cases h }
  | @handed winner gives held waits owner waiters =>
    exact
      { owned := fun thread other h => by
          rw [held] at h
          cases h
          exact absurd rfl other
        queued := fun thread _ h => by
          by_cases same : thread = winner
          · exact .inr (same ▸ owner)
          · exact .inl (by rw [waiters]; exact (List.mem_erase_of_ne same).mpr h)
        own := fun keeps _ _ => absurd gives keeps
        owners := fun thread h => by
          rw [owner] at h
          cases h
          exact .inr (.inr waits)
        waiters := fun thread h => .inl (List.mem_of_mem_erase (waiters ▸ h))
        held := fun _ _ h => by rw [owner] at h; cases h }
  | freed gives held nobody owner waiters =>
    exact
      { owned := fun thread other h => by
          rw [held] at h
          cases h
          exact absurd rfl other
        queued := fun thread _ h => by rw [nobody] at h; cases h
        own := fun keeps _ _ => absurd gives keeps
        owners := fun thread h => by rw [owner] at h; cases h
        waiters := fun thread h => by rw [waiters] at h; cases h
        held := fun _ _ _ => waiters }
  | dropped leaves held owner waiters =>
    exact
      { owned := fun thread other h => by
          rw [held] at h
          cases h
          exact absurd rfl other
        queued := fun thread _ h => .inl (waiters ▸ h)
        own := fun _ on _ => absurd leaves on
        owners := fun thread h => by rw [owner] at h; cases h
        waiters := fun thread h => .inl (waiters ▸ h)
        held := fun stays _ _ => absurd held (stays leaves) }

theorem Treats.of_queue? (same : after.queue? id = before.queue? id) :
    Treats caller gives drops id before after :=
  (Passes.of_queue? same).treats

theorem Treats.imp {gives' : Prop} (treats : Treats caller gives drops id before after)
    (h : gives → gives') : Treats caller gives' drops id before after :=
  { treats with own := fun keeps => treats.own fun given => keeps (h given) }

/-- One thing after another that drops no record. -/
theorem Treats.trans (first : Treats caller gives False id before mid)
    (second : Treats caller gives False id mid after) :
    Treats caller gives False id before after where
  owned thread other h := second.owned thread other (first.owned thread other h)
  queued thread other h :=
    (first.queued thread other h).elim (second.queued thread other)
      fun owns => .inr (second.owned thread other owns)
  own keeps on h := second.own keeps on (first.own keeps on h)
  owners thread h := by
    rcases second.owners thread h with owns | ⟨rfl, on⟩ | waits
    · exact first.owners thread owns
    · exact .inr (.inl ⟨rfl, on⟩)
    · exact (first.waiters thread waits).elim (fun h => .inr (.inr h)) fun same =>
        .inr (.inl ⟨same, not_false⟩)
  waiters thread h := (second.waiters thread h).elim (first.waiters thread) .inr
  held stays nobody free := second.held (by simp) (first.held (by simp) nobody) free

end Ledger

/-! ## Lists of what was made -/

theorem getElem?_snoc {α : Type} {list : List α} {last a : α} {index : Nat}
    (h : (list ++ [last])[index]? = some a) :
    list[index]? = some a ∨ index = list.length ∧ a = last := by
  rw [List.getElem?_append] at h
  split at h
  · exact .inl h
  · rename_i beyond
    have here : index - list.length = 0 := by
      by_contra ne
      rw [List.getElem?_eq_none (by simp; omega)] at h
      cases h
    rw [here] at h
    cases h
    exact .inr ⟨by omega, rfl⟩

theorem getElem?_modified {α : Type} {list : List α} {f : α → α} {place index : Nat} {a : α}
    (h : (list.modify place f)[index]? = some a) :
    ∃ old, list[index]? = some old ∧ a = if place = index then f old else old := by
  rw [List.getElem?_modify] at h
  obtain ⟨old, there, rfl⟩ := Option.map_eq_some_iff.mp h
  exact ⟨old, there, by split <;> rfl⟩

namespace Scene

/-! ## Handles apart -/

/-- Handles of locks and of join points whose target has not exited reach queues, no two the same,
except that locks may be shared by conditions. -/
structure Apart (scene : Scene) : Prop where
  lock_live : ∀ lock ∈ scene.locks, (scene.ledger.queue? lock.queue).isSome = true
  join_live : ∀ (index : Nat) (point : Join), scene.joins[index]? = some point →
    point.done = false →
    (scene.ledger.queue? point.queue).isSome = true
  join_apart : ∀ (index : Nat) (point : Join), scene.joins[index]? = some point →
    point.done = false →
    ∀ lock ∈ scene.locks, lock.queue ≠ point.queue
  join_unique : ∀ (index other : Nat) (point point' : Join), scene.joins[index]? = some point →
    scene.joins[other]? = some point' → point.done = false → point'.done = false →
    point.queue = point'.queue → index = other
  lock_made : ∀ (index : Nat) (condition : Condition), scene.conditions[index]? = some condition →
    condition.lock ∈ scene.locks

/-- What an operation does on a scene with handles apart. -/
structure Meets (gives : Lock → Prop) (drops : Prop) (scene after : Scene) : Prop where
  apart : after.Apart
  treats : ∀ lock ∈ scene.locks,
    Ledger.Treats scene.current (gives lock) drops lock.queue scene.ledger after.ledger
  /-- Locks that are new are free, and nobody waits for them. -/
  fresh : ∀ lock ∈ after.locks, lock ∈ scene.locks ∨
    after.ledger.owner? lock.queue = none ∧ after.ledger.waiters lock.queue = []
  locks : ∀ (index : Nat) (lock : Lock), scene.locks[index]? = some lock →
    after.locks[index]? = some lock
  conditions : ∀ (index : Nat) (condition : Condition), scene.conditions[index]? = some condition →
    ∃ now, after.conditions[index]? = some now ∧ now.lock = condition.lock

variable {scene after : Scene} {gives : Lock → Prop} {drops : Prop}

/-- Where the same queues are live and the same locks, conditions and join points there, handles are
apart as before. -/
theorem Apart.congr (apart : scene.Apart)
    (live : ∀ id, (after.ledger.queue? id).isSome = (scene.ledger.queue? id).isSome)
    (locks : after.locks = scene.locks)
    (joins : ∀ (index : Nat) (point : Join), after.joins[index]? = some point → ∃ old,
      scene.joins[index]? = some old ∧ point.queue = old.queue ∧ point.done = old.done)
    (conditions : ∀ (index : Nat) (condition : Condition),
      after.conditions[index]? = some condition → ∃ old,
      scene.conditions[index]? = some old ∧ condition.lock = old.lock) : after.Apart where
  lock_live lock h := by
    rw [live]
    exact apart.lock_live lock (locks ▸ h)
  join_live index point there on := by
    obtain ⟨old, there, queue, done⟩ := joins index point there
    rw [live, queue]
    exact apart.join_live index old there (done ▸ on)
  join_apart index point there on lock h := by
    obtain ⟨old, there, queue, done⟩ := joins index point there
    rw [queue]
    exact apart.join_apart index old there (done ▸ on) lock (locks ▸ h)
  join_unique index other point point' there there' on on' same := by
    obtain ⟨old, there, queue, done⟩ := joins index point there
    obtain ⟨old', there', queue', done'⟩ := joins other point' there'
    exact apart.join_unique index other old old' there there' (done ▸ on) (done' ▸ on')
      (queue ▸ queue' ▸ same)
  lock_made index condition there := by
    obtain ⟨old, there, lock⟩ := conditions index condition there
    rw [locks, lock]
    exact apart.lock_made index old there

/-- An operation that makes nothing and closes nothing. -/
theorem Meets.of_same (apart : scene.Apart)
    (live : ∀ id, (after.ledger.queue? id).isSome = (scene.ledger.queue? id).isSome)
    (locks : after.locks = scene.locks) (joins : after.joins = scene.joins)
    (conditions : after.conditions = scene.conditions)
    (passes : ∀ lock ∈ scene.locks,
      Ledger.Passes scene.current (gives lock) drops lock.queue scene.ledger after.ledger) :
    Meets gives drops scene after where
  apart := apart.congr live locks (fun _ point there => ⟨point, joins ▸ there, rfl, rfl⟩)
    fun _ condition there => ⟨condition, conditions ▸ there, rfl⟩
  treats lock made := (passes lock made).treats
  fresh _ h := .inl (locks ▸ h)
  locks _ _ there := locks ▸ there
  conditions _ condition there := ⟨condition, conditions ▸ there, rfl⟩

theorem Meets.imp {gives' : Lock → Prop} (meets : Meets gives drops scene after)
    (h : ∀ lock, gives lock → gives' lock) : Meets gives' drops scene after :=
  { meets with treats := fun lock made => (meets.treats lock made).imp (h lock) }

theorem Meets.refl (apart : scene.Apart) : Meets gives drops scene scene :=
  .of_same apart (fun _ => rfl) rfl rfl rfl fun _ _ => .of_queue? rfl

/-- One thing after another by the same caller, with no lock made and no record dropped. -/
theorem Meets.trans {mid : Scene} (first : Meets gives False scene mid)
    (second : Meets gives False mid after) (caller : mid.current = scene.current)
    (same : mid.locks = scene.locks) : Meets gives False scene after where
  apart := second.apart
  treats lock made := by
    have later := second.treats lock (same.symm ▸ made)
    rw [caller] at later
    exact (first.treats lock made).trans later
  fresh lock made := same ▸ second.fresh lock made
  locks index lock there := second.locks index lock (first.locks index lock there)
  conditions index condition there := by
    obtain ⟨next, found, lock⟩ := first.conditions index condition there
    obtain ⟨now, found, lock'⟩ := second.conditions index next found
    exact ⟨now, found, lock'.trans lock⟩

/-! ## Operations by which threads meet -/

section

variable {id : QueueId} {progress : Progress} (apart : scene.Apart)
include apart

theorem Quiet.meets (same : scene.Quiet after) : Meets gives drops scene after := by
  obtain ⟨ledger, memory, queues, rfl⟩ := same
  refine .of_same apart (fun id => ?_) rfl rfl rfl fun lock _ => .of_queue? (congrFun queues _)
  rw [queues]

theorem meets_dismiss (leaves : drops) (sane : scene.stage.Sane) (settled : scene.Settled) :
    Meets gives drops scene { scene with ledger := scene.ledger.dismiss scene.current } :=
  .of_same apart (Ledger.isSome_dismiss _ · _) rfl rfl rfl fun lock _ =>
    Ledger.passes_dismiss leaves (settled.not_waits (current_awake sane) (.queue lock.queue))

omit apart in
/-- A new queue is no lock's and no join point's. -/
theorem Makes.free {room : Prop} (makes : scene.Makes room true id after) (enough : room) :
    scene.ledger.queue? id = none ∧ after = { scene with
      ledger := scene.ledger.place id (.fresh scene.ledger.policy true) } :=
  makes.resolve_right fun full => full.1 enough

theorem Acquires.meets {lock : Lock} (acquires : scene.Acquires lock progress after)
    (on : ¬ drops) : Meets gives drops scene after := by
  cases acquires with
  | @free queue live free absent =>
    refine .of_same apart (Ledger.isSome_install _ _ · _) rfl rfl rfl fun other _ => ?_
    have owner := Ledger.owner?_install scene.ledger lock.queue other.queue scene.current live
    have waiters := Ledger.waiters_install scene.ledger lock.queue other.queue scene.current
    split at owner
    · rename_i same
      exact .taken on (by rw [same, Ledger.owner?_of_queue? live, free]) owner waiters
    · exact .stays owner waiters
  | @held queue thread holder saved runs live held foreign =>
    refine .of_same apart (Ledger.isSome_join _ _ · _) rfl rfl rfl fun other _ => ?_
    have owner := Ledger.owner?_join scene.ledger lock.queue other.queue thread
    have waiters := Ledger.waiters_join scene.ledger lock.queue other.queue thread live
    rw [current_of_running runs]
    split at waiters
    · rename_i same
      have holds : scene.ledger.owner? other.queue = some holder := by
        rw [same, Ledger.owner?_of_queue? live, held]
      exact .joined holds foreign (owner.trans holds) (same ▸ waiters)
    · exact .stays owner waiters

theorem Releases.meets {lock : Lock} (releases : scene.Releases lock after) :
    Meets (· = lock) drops scene after := by
  obtain ⟨held, queue, winner, live, waits, nobody, rfl⟩ := releases
  refine .of_same apart (Ledger.isSome_handOn _ _ · _) rfl rfl rfl fun other _ => ?_
  have owner := Ledger.owner?_handOn scene.ledger lock.queue other.queue live winner
  have waiters := Ledger.waiters_handOn scene.ledger lock.queue other.queue winner
  split at owner
  · rename_i same
    rw [if_pos same] at waiters
    have given : other = lock := by
      cases other
      cases lock
      exact congrArg Lock.mk same
    rw [← Ledger.waiters_of_queue? live] at waits nobody
    rw [given] at owner waiters ⊢
    cases winner with
    | none =>
      have none := nobody rfl
      exact .freed rfl held none owner (waiters.trans none)
    | some winner => exact .handed rfl held (waits winner rfl) owner waiters
  · rename_i ne
    rw [if_neg ne] at waiters
    exact .stays owner waiters

omit apart in
/-- Who stands in the line of a condition has no part in handles. -/
theorem Meets.line {place : Nat} {f : Condition → Condition} {stage : Stage} {mid : Scene}
    (meets : Meets gives drops scene mid)
    (same : ∀ condition, (f condition).lock = condition.lock) :
    Meets gives drops scene
      { mid with conditions := mid.conditions.modify place f, stage := stage } where
  apart := by
    refine meets.apart.congr (fun _ => rfl) rfl (fun _ point there => ⟨point, there, rfl, rfl⟩) ?_
    intro index condition there
    obtain ⟨old, found, rfl⟩ := getElem?_modified there
    refine ⟨old, found, ?_⟩
    split
    · exact same old
    · rfl
  treats := meets.treats
  fresh := meets.fresh
  locks := meets.locks
  conditions index condition there := by
    obtain ⟨now, there, lock⟩ := meets.conditions index condition there
    refine ⟨if place = index then f now else now, ?_, ?_⟩
    · rw [List.getElem?_modify, there]
      split <;> rfl
    · split
      · exact (same now).trans lock
      · exact lock

theorem Waits.meets {index : Nat} (waits : scene.Waits index progress after) :
    ∃ condition, scene.conditions[index]? = some condition ∧
      Meets (· = condition.lock) drops scene after := by
  obtain ⟨runs, made, gives⟩ := waits
  exact ⟨_, made, (gives.meets apart).line fun _ => rfl⟩

theorem WaitsWhile.meets {index passes : Nat} {predicate : Memory → Bool}
    (waits : scene.WaitsWhile index predicate passes progress after) :
    Meets (fun lock => predicate scene.memory = true ∧ ∃ condition,
      scene.conditions[index]? = some condition ∧ condition.lock = lock) drops scene after := by
  cases waits with
  | stop => exact .refl apart
  | waits holds waits =>
    obtain ⟨condition, made, meets⟩ := waits.meets apart
    exact meets.imp fun lock same => ⟨holds, condition, made, same.symm⟩

omit apart in
theorem HandsOn.joins (hands : scene.HandsOn id after) : after.joins = scene.joins := by
  obtain ⟨queue, winner, -, -, -, rfl⟩ := hands
  rfl

omit apart in
theorem Waits.joins {index : Nat} (waits : scene.Waits index progress after) :
    after.joins = scene.joins := by
  obtain ⟨-, -, gives⟩ := waits
  exact gives.hands.joins

omit apart in
theorem WaitsWhile.joins {index passes : Nat} {predicate : Memory → Bool}
    (waits : scene.WaitsWhile index predicate passes progress after) :
    after.joins = scene.joins := by
  cases waits with
  | stop => rfl
  | waits holds waits => exact waits.joins

omit apart in
theorem Joins.joins {index : Nat} (joins : scene.Joins index progress after) :
    after.joins = (scene.joined index).joins := by
  cases joins <;> rfl

theorem CallsUp.meets {index : Nat} {all : Bool} (calls : scene.CallsUp index all after) :
    Meets gives drops scene after := by
  cases calls with
  | nobody => exact .refl apart
  | some => exact (Meets.refl apart).line fun _ => rfl

theorem meets_lock {room : Prop} {lock : Lock} {next : Scene}
    (makes : scene.Makes room true lock.queue next) (enough : room) :
    Meets gives drops scene { next with locks := next.locks ++ [lock] } := by
  -- No handle that reaches a queue is the new one, since its slot was free.
  obtain ⟨free, rfl⟩ := Makes.free makes enough
  refine ⟨⟨?_, ?_, ?_, apart.join_unique, ?_⟩, ?_, ?_, ?_, ?_⟩
  · intro other h
    rcases List.mem_append.mp h with old | new
    · exact Ledger.isSome_place _ (apart.lock_live other old)
    · rw [List.mem_singleton.mp new, Ledger.place]
      simp
  · intro index point there on
    exact Ledger.isSome_place _ (apart.join_live index point there on)
  · intro index point there on other h
    rcases List.mem_append.mp h with old | new
    · exact apart.join_apart index point there on other old
    · rw [List.mem_singleton.mp new]
      exact (Ledger.ne_of_live free (apart.join_live index point there on)).symm
  · intro index condition there
    exact List.mem_append_left _ (apart.lock_made index condition there)
  · intro other h
    exact .of_queue? (if_neg (Ledger.ne_of_live free (apart.lock_live other h)))
  · intro other h
    rcases List.mem_append.mp h with old | new
    · exact .inl old
    · rw [List.mem_singleton.mp new, Ledger.owner?_place, Ledger.waiters_place,
        if_pos rfl, if_pos rfl]
      exact .inr ⟨rfl, rfl⟩
  · intro index other there
    rw [List.getElem?_append_left (List.getElem?_eq_some_iff.mp there).1]
    exact there
  · exact fun index condition there => ⟨condition, there, rfl⟩

theorem meets_condition {index : Nat} {lock : Lock} (made : scene.locks[index]? = some lock) :
    Meets gives drops scene { scene with conditions := scene.conditions ++ [⟨lock, []⟩] } := by
  refine ⟨⟨apart.lock_live, apart.join_live, apart.join_apart, apart.join_unique, ?_⟩,
    fun _ _ => .of_queue? rfl, fun _ h => .inl h, fun _ _ there => there, ?_⟩
  · intro other condition there
    rcases getElem?_snoc there with old | ⟨-, rfl⟩
    · exact apart.lock_made other condition old
    · exact List.mem_of_getElem? made
  · intro other condition there
    refine ⟨condition, ?_, rfl⟩
    rw [List.getElem?_append_left (List.getElem?_eq_some_iff.mp there).1]
    exact there

theorem meets_joinPoint {room : Prop} {target : ThreadId} {next : Scene}
    (makes : scene.Makes room true id next) (enough : room) :
    Meets gives drops scene { next with
      ledger := next.ledger.install id target
      joins := next.joins ++ [⟨id, target, false, false⟩] } := by
  obtain ⟨free, rfl⟩ := Makes.free makes enough
  have live : ∀ {other}, (scene.ledger.queue? other).isSome = true →
      (((scene.ledger.place id (.fresh scene.ledger.policy true)).install id target).queue?
        other).isSome = true := by
    intro other live
    rw [Ledger.isSome_install]
    exact Ledger.isSome_place _ live
  refine ⟨⟨?_, ?_, ?_, ?_, apart.lock_made⟩, ?_, fun _ h => .inl h, fun _ _ there => there,
    fun _ condition there => ⟨condition, there, rfl⟩⟩
  · exact fun lock h => live (apart.lock_live lock h)
  · intro index point there on
    rcases getElem?_snoc there with old | ⟨-, rfl⟩
    · exact live (apart.join_live index point old on)
    · rw [Ledger.isSome_install, Ledger.place]
      simp
  · intro index point there on lock h
    rcases getElem?_snoc there with old | ⟨-, rfl⟩
    · exact apart.join_apart index point old on lock h
    · exact Ledger.ne_of_live free (apart.lock_live lock h)
  · intro index other point point' there there' on on' same
    rcases getElem?_snoc there with old | ⟨rfl, rfl⟩ <;>
      rcases getElem?_snoc there' with old' | ⟨rfl, rfl⟩
    · exact apart.join_unique index other point point' old old' on on' same
    · exact absurd same (Ledger.ne_of_live free (apart.join_live index point old on))
    · exact absurd same.symm (Ledger.ne_of_live free (apart.join_live other point' old' on'))
    · rfl
  · intro lock h
    have ne := Ledger.ne_of_live free (apart.lock_live lock h)
    refine .of_queue? ?_
    simp [Ledger.install, Ledger.alter, Ledger.place, ne]

theorem Joins.meets {index : Nat} (joins : scene.Joins index progress after) :
    Meets gives drops scene after := by
  have alike : ∀ (other : Nat) (point : Join), (scene.joined index).joins[other]? = some point →
      ∃ old, scene.joins[other]? = some old ∧ point.queue = old.queue ∧ point.done = old.done := by
    intro other point there
    obtain ⟨old, found, rfl⟩ := getElem?_modified there
    exact ⟨old, found, by split <;> rfl, by split <;> rfl⟩
  cases joins with
  | late =>
    exact ⟨apart.congr (fun _ => rfl) rfl alike fun _ condition there => ⟨condition, there, rfl⟩,
      fun _ _ => .of_queue? rfl, fun _ h => .inl h, fun _ _ there => there,
      fun _ condition there => ⟨condition, there, rfl⟩⟩
  | @waits point queue thread saved runs made on live =>
    refine ⟨apart.congr (Ledger.isSome_join _ _ · _) rfl alike
        fun _ condition there => ⟨condition, there, rfl⟩,
      fun lock h => ?_, fun _ h => .inl h, fun _ _ there => there,
      fun _ condition there => ⟨condition, there, rfl⟩⟩
    have ne := apart.join_apart index point made on lock h
    refine .of_queue? ?_
    simp [park, joined, Ledger.join, Ledger.write, Ledger.alter, ne]

/-- A thread that exits through its own join point closes no lock, and no other join point. -/
theorem Exits.meets {index : Nat} (exits : scene.Exits index after) (leaves : drops)
    (sane : scene.stage.Sane) (settled : scene.Settled)
    (on : ∀ point : Join, scene.joins[index]? = some point → scene.current = point.target →
      point.done = false) : Meets gives drops scene after := by
  obtain ⟨made, target, hands, -, -⟩ := exits
  rename_i point queue next
  have on := on point made target
  obtain ⟨queue, winner, live, -, -, rfl⟩ := hands
  have isSome : ∀ id, id ≠ point.queue →
      ((((scene.ledger.handOn point.queue winner).close point.queue).dismiss scene.current).queue?
        id).isSome = (scene.ledger.queue? id).isSome := by
    intro id ne
    rw [Ledger.isSome_dismiss, Ledger.close]
    dsimp only [Ledger.strip]
    rw [if_neg ne, Ledger.isSome_handOn]
  have others : ∀ (other : Nat) (point' : Join), (scene.joins.modify index fun point =>
      { point with done := true })[other]? = some point' → point'.done = false →
      scene.joins[other]? = some point' ∧ point'.queue ≠ point.queue := by
    intro other point' there still
    obtain ⟨old, found, rfl⟩ := getElem?_modified there
    split at still
    · cases still
    · rename_i ne
      rw [if_neg ne]
      exact ⟨found, fun same => ne (apart.join_unique index other point old made found on still
        same.symm)⟩
  -- Locks and the points that are still open have other handles, so what they reach is unchanged.
  refine ⟨⟨?_, ?_, ?_, ?_, apart.lock_made⟩, ?_, fun _ h => .inl h, fun _ _ there => there,
    fun _ condition there => ⟨condition, there, rfl⟩⟩
  · intro lock h
    exact (isSome _ (apart.join_apart index point made on lock h)).trans (apart.lock_live lock h)
  · intro other point' there still
    obtain ⟨found, ne⟩ := others other point' there still
    exact (isSome _ ne).trans (apart.join_live other point' found still)
  · intro other point' there still
    exact apart.join_apart other point' (others other point' there still).1 still
  · intro first second a b ha hb na nb
    exact apart.join_unique first second a b (others first a ha na).1
      (others second b hb nb).1 na nb
  · intro lock h
    have ne := apart.join_apart index point made on lock h
    have owner : ((scene.ledger.handOn point.queue winner).close point.queue).owner? lock.queue =
        scene.ledger.owner? lock.queue := by
      rw [Ledger.owner?_close, if_neg ne, Ledger.owner?_handOn _ _ _ live, if_neg ne]
    have waiters : ((scene.ledger.handOn point.queue winner).close point.queue).waiters lock.queue =
        scene.ledger.waiters lock.queue := by
      rw [Ledger.waiters_close, if_neg ne, Ledger.waiters_handOn, if_neg ne]
    have absent := settled.not_waits (current_awake sane) (.queue lock.queue)
    exact ((Ledger.passes_dismiss leaves (waiters ▸ absent)).congr owner waiters).treats

end

end Scene

/-! ## Requests and tasks -/

/-- The lock under which a request waits at once: its caller gives it up, and holds it again when
the request returns. -/
def Request.waitedUnder (scene : Scene) : Request → Option Lock
  | conditionWait index => (scene.conditions[index]?).map (·.lock)
  | conditionWhile index predicate =>
    if predicate scene.memory then (scene.conditions[index]?).map (·.lock) else none
  | _ => none

/-- The lock that a request gives up. -/
def Request.released (scene : Scene) : Request → Option Lock
  | lockRelease index => scene.locks[index]?
  | request => request.waitedUnder scene

/-- The lock that the caller holds when the request returns. -/
def Request.obtained (scene : Scene) : Request → Option Lock
  | lockAcquire index => scene.locks[index]?
  | request => request.waitedUnder scene

/-- Whether a request drops its caller's record. -/
def Request.leaves : Request → Bool
  | exitThread _ | finish | joinExit _ => true
  | _ => false

section

variable {scene after : Scene} {progress : Progress} (apart : scene.Apart)
  (sane : scene.stage.Sane) (settled : scene.Settled)
include apart sane settled

/-- What a request does where there is room for handles, if nobody exits through a join point for a
second time. -/
theorem Request.Outcome.meets {room : Prop} {request : Request} (enough : room)
    (outcome : request.Outcome room scene progress after)
    (first : ∀ index, request = .joinExit index → ∀ point : Join,
      scene.joins[index]? = some point → scene.current = point.target → point.done = false) :
    Scene.Meets (fun lock => request.released scene = some lock) (request.leaves = true)
      scene after := by
  cases outcome with
  | quiet plain same => exact same.meets apart
  | exit | finish => exact Scene.meets_dismiss apart rfl sane settled
  | lock makes => exact Scene.meets_lock apart makes enough
  | lockAcquire made acquires => exact acquires.meets apart (by simp [leaves])
  | lockRelease made releases =>
    refine (releases.meets apart).imp ?_
    rintro _ rfl
    exact made
  | condition made => exact Scene.meets_condition apart made
  | conditionWait waits =>
    obtain ⟨condition, made, meets⟩ := waits.meets apart
    refine meets.imp ?_
    rintro _ rfl
    simp [released, waitedUnder, made]
  | conditionWhile waits =>
    refine (waits.meets apart).imp ?_
    rintro _ ⟨holds, condition, made, rfl⟩
    simp [released, waitedUnder, made, holds]
  | conditionSignal calls | conditionBroadcast calls => exact calls.meets apart
  | joinPoint makes => exact Scene.meets_joinPoint apart makes enough
  | join joins => exact joins.meets apart
  | joinExit exits => exact exits.meets apart rfl sane settled (first _ rfl)
  | alarmWait naps =>
    cases naps with
    | never => exact .refl apart
    | sleeps => exact .of_same apart (fun _ => rfl) rfl rfl rfl fun _ _ => .of_queue? rfl
  | alarmTick ticks =>
    cases ticks <;> exact .of_same apart (fun _ => rfl) rfl rfl rfl fun _ _ => .of_queue? rfl
  | yield offers =>
    cases offers with
    | idle => exact .refl apart
    | thread => exact .of_same apart (fun _ => rfl) rfl rfl rfl fun _ _ => .of_queue? rfl

end

/-- A join point is closed for good, by its target on the way out. -/
theorem Request.Outcome.closed {scene after : Scene} {progress : Progress} {room : Prop}
    {request : Request} (outcome : request.Outcome room scene progress after) {index : Nat}
    {point : Join} (there : after.joins[index]? = some point) (past : point.done = true) :
    (∃ old, scene.joins[index]? = some old ∧ old.done = true ∧ old.target = point.target) ∨
      request = .joinExit index ∧ progress = .finished ∧ point.target = scene.current := by
  cases outcome with
  | quiet plain same =>
    obtain ⟨ledger, memory, -, rfl⟩ := same
    exact .inl ⟨point, there, past, rfl⟩
  | exit | finish | condition => exact .inl ⟨point, there, past, rfl⟩
  | lock makes =>
    rcases makes with ⟨-, rfl⟩ | ⟨-, rfl⟩ <;> exact .inl ⟨point, there, past, rfl⟩
  | lockAcquire made acquires => cases acquires <;> exact .inl ⟨point, there, past, rfl⟩
  | lockRelease made releases =>
    rw [releases.hands.joins] at there
    exact .inl ⟨point, there, past, rfl⟩
  | conditionWait waits =>
    rw [waits.joins] at there
    exact .inl ⟨point, there, past, rfl⟩
  | conditionWhile waits =>
    rw [waits.joins] at there
    exact .inl ⟨point, there, past, rfl⟩
  | conditionSignal calls | conditionBroadcast calls =>
    cases calls <;> exact .inl ⟨point, there, past, rfl⟩
  | joinPoint makes =>
    rcases makes with ⟨-, rfl⟩ | ⟨-, rfl⟩ <;>
      (rcases getElem?_snoc there with old | ⟨-, rfl⟩
       · exact .inl ⟨point, old, past, rfl⟩
       · cases past)
  | join joins =>
    rw [joins.joins] at there
    obtain ⟨old, found, rfl⟩ := getElem?_modified there
    exact .inl ⟨old, found, by split at past <;> exact past, by split <;> rfl⟩
  | joinExit exits =>
    obtain ⟨made, target, hands, -, -⟩ := exits
    obtain ⟨old, found, rfl⟩ := getElem?_modified there
    split at past
    · rename_i same
      rw [← same, made] at found
      cases found
      exact .inr ⟨same ▸ rfl, rfl, by rw [if_pos same]; exact target.symm⟩
    · rename_i ne
      exact .inl ⟨old, found, past, by rw [if_neg ne]⟩
  | alarmWait naps => cases naps <;> exact .inl ⟨point, there, past, rfl⟩
  | alarmTick ticks => cases ticks <;> exact .inl ⟨point, there, past, rfl⟩
  | yield offers => cases offers <;> exact .inl ⟨point, there, past, rfl⟩

/-- The lock that a task gives up. -/
def Task.releases (scene : Scene) (lock : Lock) : Task → Prop
  | recheck index _ _ =>
    ∃ condition, scene.conditions[index]? = some condition ∧ condition.lock = lock
  | _ => False

/-- A task makes neither locks nor join points. -/
theorem Task.Outcome.made {scene after : Scene} {progress : Progress} {task : Task}
    (outcome : task.Outcome scene progress after) :
    after.locks = scene.locks ∧ after.joins = scene.joins := by
  cases outcome with
  | leave | confirm | wakeDue => exact ⟨rfl, rfl⟩
  | acquire acquires => cases acquires <;> exact ⟨rfl, rfl⟩
  | recheck waits =>
    cases waits with
    | stop => exact ⟨rfl, rfl⟩
    | waits holds waits =>
      obtain ⟨-, -, gives⟩ := waits
      obtain ⟨queue, winner, -, -, -, rfl⟩ := gives.hands
      exact ⟨rfl, rfl⟩

/-- What a task does. It drops no record. -/
theorem Task.Outcome.meets {scene after : Scene} {progress : Progress} {task : Task}
    (outcome : task.Outcome scene progress after) (apart : scene.Apart) :
    Scene.Meets (task.releases scene) False scene after := by
  cases outcome with
  | leave | confirm => exact .refl apart
  | acquire acquires => exact acquires.meets apart (by simp)
  | recheck waits => exact (waits.meets apart).imp fun _ gives => gives.2
  | wakeDue => exact .of_same apart (fun _ => rfl) rfl rfl rfl fun _ _ => .of_queue? rfl

end Turnstile
