import Turnstile.Proofs.Tables.Reachable

/-!
# Tables that differ in weights kept

Two tables are **alike** (`Tables.Alike`) if they differ in nothing but weights kept. A call does
the same to both: it gives the same answer and leaves alike tables, or it fails with the same
violation (`perform_agree`).

* **`Agree`** says of two results that they are both values that are related, or both the same
  violation. Results of one operation after another agree if each does (`Agree.bind`).
* **Operations that look at no weight kept** agree on alike tables, step by step.
* **Operations that weigh threads** agree on tables that are sound besides: whether a weight is
  kept or worked out, it is the one that base weights and lenders give.
-/

namespace Turnstile

/-- Two results are related values or the same violation. -/
def Agree {α β : Type} (related : α → β → Prop) : Except Violation α → Except Violation β → Prop
  | .ok a, .ok b => related a b
  | .error violation, .error other => violation = other
  | _, _ => False

namespace Agree

variable {α β γ δ : Type} {related : α → β → Prop} {onward : γ → δ → Prop}
  {first : Except Violation α} {second : Except Violation β}

/-- Both are values, or both are violations. -/
theorem cases (h : Agree related first second) :
    (∃ a b, first = .ok a ∧ second = .ok b ∧ related a b) ∨
      ∃ violation, first = .error violation ∧ second = .error violation := by
  cases first with
  | ok a =>
    cases second with
    | ok b => exact .inl ⟨a, b, rfl, rfl, h⟩
    | error _ => exact h.elim
  | error violation =>
    cases second with
    | ok _ => exact h.elim
    | error other => exact .inr ⟨violation, rfl, congrArg Except.error h.symm⟩

theorem bind {f : α → Except Violation γ} {g : β → Except Violation δ}
    (h : Agree related first second) (next : ∀ a b, related a b → Agree onward (f a) (g b)) :
    Agree onward (first >>= f) (second >>= g) := by
  rcases h.cases with ⟨a, b, rfl, rfl, h⟩ | ⟨violation, rfl, rfl⟩
  · exact next a b h
  · exact (rfl : violation = violation)

theorem map {f : α → γ} {g : β → δ} (h : Agree related first second)
    (next : ∀ a b, related a b → onward (f a) (g b)) :
    Agree onward (first.map f) (second.map g) := by
  rcases h.cases with ⟨a, b, rfl, rfl, h⟩ | ⟨violation, rfl, rfl⟩
  · exact next a b h
  · exact (rfl : violation = violation)

theorem of_ok {a : α} {b : β} (ok : first = .ok a) (ok' : second = .ok b) (h : related a b) :
    Agree related first second := by
  rw [ok, ok']
  exact h

end Agree

namespace Tables

open Ledger

/-- Two tables differ in nothing but weights kept. -/
def Alike (a b : Tables) : Prop := a.bare = b.bare

/-- Two answers are the same and leave alike tables. -/
def AnswersAlike {α : Type} (first second : α × Tables) : Prop :=
  first.1 = second.1 ∧ first.2.Alike second.2

namespace Alike

variable {a b : Tables} (alike : a.Alike b)
include alike

/-! ## Reads -/

theorem policy : a.policy = b.policy :=
  show a.bare.policy = b.bare.policy by rw [show a.bare = b.bare from alike]

theorem queues : a.queues = b.queues :=
  show a.bare.queues = b.bare.queues by rw [show a.bare = b.bare from alike]

theorem stamp : a.stamp = b.stamp :=
  show a.bare.stamp = b.bare.stamp by rw [show a.bare = b.bare from alike]

theorem generator : a.generator = b.generator :=
  show a.bare.generator = b.bare.generator by rw [show a.bare = b.bare from alike]

theorem queue (id : QueueId) : a.queue id = b.queue id := by
  rw [Tables.queue, Tables.queue, alike.queues]

theorem ledger : a.ledger.bare = b.ledger.bare :=
  ledger_bare_eq_of_bare alike

theorem state (thread : ThreadId) : (a.state thread).bare = (b.state thread).bare :=
  record_of_bare alike.ledger thread

theorem base (thread : ThreadId) : (a.state thread).base = (b.state thread).base :=
  base_of_bare alike.ledger thread

theorem enqueuedAt (thread : ThreadId) :
    (a.state thread).enqueuedAt = (b.state thread).enqueuedAt :=
  enqueuedAt_of_bare alike.ledger thread

theorem waitingOn (thread : ThreadId) :
    (a.state thread).waitingOn = (b.state thread).waitingOn :=
  waitingOn_of_bare alike.ledger thread

theorem knows (thread : ThreadId) : a.knows thread = b.knows thread :=
  knows_eq_of_bare alike thread

theorem donee? {first second : ThreadState} (same : first.waitingOn = second.waitingOn) :
    a.donee? first = b.donee? second := by
  rw [Tables.donee?, Tables.donee?, same, alike.queues]

/-- Records are there for the same threads, and differ in nothing but weights kept. -/
theorem get? (thread : ThreadId) :
    (a.threads.get? thread).map ThreadState.bare = (b.threads.get? thread).map
      ThreadState.bare := by
  have := congrArg (fun tables : Tables => tables.threads.get? thread) alike
  simpa [bare, Directory.get?_map] using this

/-- Neither has a record for the thread, or both have one, and these differ in nothing but the
weight kept. -/
theorem records (thread : ThreadId) :
    (a.threads.get? thread = none ∧ b.threads.get? thread = none) ∨
      ∃ state other, a.threads.get? thread = some state ∧ b.threads.get? thread = some other ∧
        state.bare = other.bare := by
  have same := alike.get? thread
  cases known : a.threads.get? thread with
  | none =>
    rw [known] at same
    exact .inl ⟨rfl, by simpa using same.symm⟩
  | some state =>
    rw [known] at same
    obtain ⟨other, known', bare⟩ := Option.map_eq_some_iff.mp same.symm
    exact .inr ⟨state, other, rfl, known', bare.symm⟩

/-! ## Writes -/

theorem with_queues (queues : QueueTable) :
    Alike { a with queues } { b with queues } :=
  congrArg (fun tables : Tables => ({ tables with queues } : Tables))
    (show a.bare = b.bare from alike)

theorem with_stamp (stamp : Nat) : Alike { a with stamp } { b with stamp } :=
  congrArg (fun tables : Tables => ({ tables with stamp } : Tables))
    (show a.bare = b.bare from alike)

theorem with_generator (generator : XorShift) :
    Alike { a with generator } { b with generator } :=
  congrArg (fun tables : Tables => ({ tables with generator } : Tables))
    (show a.bare = b.bare from alike)

theorem alter (id : QueueId) (f : Queue → Queue) : (a.alter id f).Alike (b.alter id f) := by
  rw [Tables.alter, Tables.alter, alike.queues]
  exact alike.with_queues _

theorem drop (id : QueueId) : (a.drop id).Alike (b.drop id) := by
  rw [Tables.drop, Tables.drop, alike.queues]
  cases b.queues.remove id with
  | none => exact alike
  | some removed => exact alike.with_queues removed.2

theorem record {f : ThreadState → ThreadState}
    (blind : ∀ state, (f state).bare = (f state.bare).bare)
    (thread : ThreadId) : (a.record thread f).Alike (b.record thread f) := by
  have same : (f (a.state thread)).bare = (f (b.state thread)).bare := by
    rw [blind, blind (b.state thread), alike.state]
  show (a.record thread f).bare = (b.record thread f).bare
  rw [bare_record, bare_record, same, show a.bare = b.bare from alike]

theorem enrol (thread : ThreadId) : (a.enrol thread).Alike (b.enrol thread) := by
  rw [Tables.enrol, Tables.enrol, alike.knows]
  split
  · exact alike
  · exact alike.record (fun _ => rfl) thread

theorem amend {f : ThreadState → ThreadState}
    (blind : ∀ state, (f state).bare = (f state.bare).bare)
    (thread : ThreadId) : (a.amend thread f).Alike (b.amend thread f) := by
  rcases alike.records thread with ⟨ha, hb⟩ | ⟨state, other, ha, hb, -⟩
  · simpa [Tables.amend, Directory.modify, ha, hb] using alike
  · have recorded := alike.record blind thread
    simpa [Tables.amend, Directory.modify, Tables.record, ha, hb, state_of_get? ha,
      state_of_get? hb] using recorded

theorem erase (thread : ThreadId) :
    Alike { a with threads := a.threads.erase thread }
      { b with threads := b.threads.erase thread } := by
  have erased : ∀ directory : Directory ThreadId ThreadState,
      (directory.erase thread).map ThreadState.bare =
        (directory.map ThreadState.bare).erase thread := by
    intro directory
    simp [Directory.erase, Directory.map, List.filter_map, Function.comp_def]
  show Tables.bare _ = Tables.bare _
  simp only [Tables.bare, erased]
  exact congrArg (fun tables : Tables => { tables with threads := tables.threads.erase thread })
    alike

/-! ## Walks -/

theorem invalidateWithin (hops : Nat) (thread : ThreadId) :
    Agree Alike (invalidateWithin hops thread a) (invalidateWithin hops thread b) := by
  induction hops generalizing a b thread with
  | zero => exact rfl
  | succ hops ih =>
    rw [Tables.invalidateWithin, Tables.invalidateWithin]
    rcases alike.records thread with ⟨ha, hb⟩ | ⟨state, other, ha, hb, bare⟩
    · rw [ha, hb]
      exact alike
    · have waits : state.waitingOn = other.waitingOn := (ThreadState.bare_eq_iff.mp bare).2.2.2
      have cleared := alike.amend (f := fun state => { state with memo := none })
        (fun _ => rfl) thread
      simp only [ha, hb, alike.donee? waits]
      cases b.donee? other with
      | none => exact cleared
      | some owner => exact ih cleared owner

theorem invalidate (thread : ThreadId) :
    Agree Alike (a.invalidate thread) (b.invalidate thread) := by
  rw [Tables.invalidate, Tables.invalidate, size_eq_of_bare alike]
  exact alike.invalidateWithin _ thread

theorem disown (owner : ThreadId) (id : QueueId) :
    Agree Alike (a.disown owner id) (b.disown owner id) :=
  (alike.amend (fun _ => rfl) owner).invalidate owner

end Alike

/-! ## Operations -/

/-- Looking a queue up agrees, and what follows may rely on the queue. -/
theorem agree_queue {α : Type} {related : α → α → Prop} {a b : Tables} (alike : a.Alike b)
    (id : QueueId) {f g : Queue → Except Violation α}
    (next : ∀ queue, b.queues.get? id = some queue → Agree related (f queue) (g queue)) :
    Agree related (a.queue id >>= f) (b.queue id >>= g) := by
  rw [alike.queue]
  cases live : b.queue id with
  | error violation => exact rfl
  | ok queue => exact next queue (queue_eq_ok_iff.mp live)

namespace Alike

variable {a b : Tables} (alike : a.Alike b)
include alike

theorem newQueue (donation : Bool) : AnswersAlike (a.newQueue donation) (b.newQueue donation) := by
  have same : a.queues.insert (.fresh a.policy donation) =
      b.queues.insert (.fresh b.policy donation) := by rw [alike.policy, alike.queues]
  simp only [Tables.newQueue, same]
  exact ⟨rfl, alike.with_queues _⟩

theorem closeQueue (id : QueueId) : Agree Alike (a.closeQueue id) (b.closeQueue id) := by
  refine agree_queue alike id fun queue _ => ?_
  split
  · cases queue.owner with
    | none => exact alike.drop id
    | some owner => exact (alike.disown owner id).bind fun _ _ alike => alike.drop id
  · exact rfl

theorem join (id : QueueId) (thread : ThreadId) : (a.join id thread).Alike (b.join id thread) := by
  rw [Tables.join, Tables.join, alike.stamp]
  exact ((alike.with_stamp _).record (fun _ => rfl) thread).alter id _

theorem enqueue (id : QueueId) (thread : ThreadId) :
    Agree Alike (a.enqueue id thread) (b.enqueue id thread) := by
  refine agree_queue alike id fun queue _ => ?_
  rw [alike.stamp, alike.waitingOn]
  split
  · exact rfl
  · split
    · exact rfl
    · cases (b.state thread).waitingOn with
      | some other => exact rfl
      | none => exact (alike.join id thread).invalidate thread

theorem displace (id : QueueId) (thread : ThreadId) (former : Option ThreadId) :
    Agree Alike (a.displace id thread former) (b.displace id thread former) := by
  cases former with
  | none => exact alike
  | some former =>
    rw [Tables.displace, Tables.displace]
    split
    · exact alike
    · exact alike.disown former id

theorem acquire (id : QueueId) (thread : ThreadId) :
    Agree Alike (a.acquire id thread) (b.acquire id thread) := by
  refine agree_queue alike id fun queue _ => ?_
  split
  · exact rfl
  · refine ((alike.alter id _).displace id thread queue.owner).bind fun _ _ alike => ?_
    refine (alike.record (fun state => ?_) thread).invalidate thread
    rw [attach_bare, attach_bare]
    rfl

theorem vacate (id : QueueId) : Agree Alike (a.vacate id) (b.vacate id) := by
  refine agree_queue alike id fun queue _ => ?_
  cases queue.owner with
  | none => exact alike.alter id _
  | some previous => exact (alike.alter id _).disown previous id

theorem withdraw (id : QueueId) (thread : ThreadId) :
    (a.withdraw id thread).Alike (b.withdraw id thread) :=
  (alike.alter id _).record (fun _ => rfl) thread

theorem setBase (thread : ThreadId) (weight : Int) :
    Agree Alike (a.setBase thread weight) (b.setBase thread weight) := by
  rw [Tables.setBase, Tables.setBase, alike.policy, alike.base]
  split
  · exact alike.enrol thread
  · exact (alike.record (fun _ => rfl) thread).invalidate thread

theorem strike (thread : ThreadId) (waitingOn : Option QueueId) :
    (a.strike thread waitingOn).Alike (b.strike thread waitingOn) := by
  cases waitingOn with
  | none => exact alike.erase thread
  | some id => exact (alike.erase thread).alter id _

theorem release (thread : ThreadId) (ids : List QueueId) :
    (a.release thread ids).Alike (b.release thread ids) := by
  induction ids generalizing a b with
  | nil => exact alike
  | cons id rest ih => exact ih (alike.alter id _)

theorem invalidateDonee (donee : Option ThreadId) :
    Agree Alike (a.invalidateDonee donee) (b.invalidateDonee donee) := by
  cases donee with
  | none => exact alike
  | some owner => exact alike.invalidate owner

theorem forget (thread : ThreadId) : Agree Alike (a.forget thread) (b.forget thread) := by
  rw [Tables.forget, Tables.forget]
  rcases alike.records thread with ⟨ha, hb⟩ | ⟨state, other, ha, hb, bare⟩
  · rw [ha, hb]
    exact alike
  · obtain ⟨-, owned, -, waits⟩ := ThreadState.bare_eq_iff.mp bare
    simp only [ha, hb, waits, owned, alike.donee? waits]
    exact ((alike.strike thread _).invalidateDonee _).bind fun _ _ alike => alike.release thread _

end Alike

/-! ## Weighing -/

/-- Weighing a thread does not show except in weights kept. -/
theorem effective_bare {tables : Tables} (sound : tables.Sound) (thread : ThreadId) :
    ∃ weight after, tables.effective thread = .ok (weight, after) ∧
      after.Alike (tables.enrol thread) ∧ after.Sound ∧ tables.ledger.Weighs thread weight := by
  obtain ⟨weight, after, ok, weighed, weighs⟩ :=
    effective_ok sound.linked sound.acyclic sound.coherent thread
  refine ⟨weight, after, ok, weighed.bare, sound.of_bare ?_ weighed.coherent, weighs⟩
  rw [ledger_bare_eq_of_bare weighed.bare, ledger_enrol]

section Sound

variable {a b : Tables} (alike : a.Alike b) (left : a.Sound) (right : b.Sound)
include alike left right

/-- Alike tables that are both sound, as the steps of a choice leave them. -/
def BothSound (first second : Tables) : Prop := first.Alike second ∧ first.Sound ∧ second.Sound

theorem agree_effective (thread : ThreadId) :
    Agree (fun first second => first.1 = second.1 ∧ BothSound first.2 second.2)
      (a.effective thread) (b.effective thread) := by
  obtain ⟨weight, after, ok, bare, sound, weighs⟩ := effective_bare left thread
  obtain ⟨weight', after', ok', bare', sound', weighs'⟩ := effective_bare right thread
  refine .of_ok ok ok' ⟨?_, ?_, sound, sound'⟩
  · exact (weighs.of_bare alike.ledger.symm).unique weighs'
  · exact (bare.trans (alike.enrol thread)).trans bare'.symm

theorem agree_standing (donation : Bool) (thread : ThreadId) :
    Agree (fun first second => first.1 = second.1 ∧ BothSound first.2 second.2)
      (a.standing donation thread) (b.standing donation thread) := by
  cases donation with
  | true => exact agree_effective alike left right thread
  | false =>
    exact ⟨alike.base thread, alike.enrol thread, enrol_sound left thread, enrol_sound right thread⟩

theorem agree_candidates (donation : Bool) (waiting : List ThreadId) :
    Agree (fun first second => first.1 = second.1 ∧ BothSound first.2 second.2)
      (a.candidates donation waiting) (b.candidates donation waiting) := by
  induction waiting generalizing a b with
  | nil => exact ⟨rfl, alike, left, right⟩
  | cons thread rest ih =>
    refine (agree_standing alike left right donation thread).bind ?_
    rintro ⟨weight, first⟩ ⟨weight', second⟩ ⟨rfl, alike, left, right⟩
    refine (ih alike left right).bind ?_
    rintro ⟨others, first⟩ ⟨others', second⟩ ⟨rfl, alike, left, right⟩
    refine ⟨?_, alike, left, right⟩
    rw [alike.enqueuedAt]

/-- Candidates, and with them the choice among the waiters, are the same. A draw takes the same
word from the same generator. -/
theorem agree_choose (queue : Queue) :
    Agree AnswersAlike (a.choose queue) (b.choose queue) := by
  refine (agree_candidates alike left right queue.donation queue.waiting).bind ?_
  rintro ⟨candidates, first⟩ ⟨candidates', second⟩ ⟨rfl, alike, -, -⟩
  cases queue.policy with
  | priority => exact ⟨rfl, alike⟩
  | lottery =>
    show Agree AnswersAlike (Lottery.draw _ first.generator >>= _)
      (Lottery.draw _ second.generator >>= _)
    rw [alike.generator]
    cases Lottery.draw (candidates.map (·.weight)) second.generator with
    | error violation => exact rfl
    | ok drawn => exact ⟨rfl, alike.with_generator _⟩

theorem agree_handOver (id : QueueId) :
    Agree AnswersAlike (a.handOver id) (b.handOver id) := by
  cases live : b.queues.get? id with
  | none =>
    have live' : a.queues.get? id = none := by rw [alike.queues, live]
    simp [handOver, Tables.vacate, Tables.queue, live, live', bind, Except.bind, Agree]
  | some queue =>
    have live' : a.queues.get? id = some queue := by rw [alike.queues, live]
    obtain ⟨first, ok, left, -⟩ := vacate_ok left live'
    obtain ⟨second, ok', right, -⟩ := vacate_ok right live
    have alike : first.Alike second := by
      have := alike.vacate id
      rwa [ok, ok'] at this
    rw [handOver, handOver, ok, ok']
    refine agree_queue alike id fun queue _ => ?_
    refine (agree_choose alike left right queue).bind ?_
    rintro ⟨winner, first⟩ ⟨winner', second⟩ ⟨rfl, alike⟩
    cases winner with
    | none => exact ⟨rfl, alike⟩
    | some winner =>
      exact ((alike.withdraw id winner).acquire id winner).bind fun _ _ alike => ⟨rfl, alike⟩

/-- A call does the same to alike sound tables. -/
theorem perform_agree (call : Call) : Agree AnswersAlike (call.perform a) (call.perform b) := by
  have silent : ∀ {first second : Except Violation Tables}, Agree Alike first second →
      Agree AnswersAlike (first.map (Answer.nothing, ·)) (second.map (Answer.nothing, ·)) :=
    fun agree => agree.map fun _ _ alike => ⟨rfl, alike⟩
  cases call with
  | newQueue donation =>
    obtain ⟨same, alike⟩ := alike.newQueue donation
    exact ⟨congrArg Answer.queue same, alike⟩
  | closeQueue id => exact silent (alike.closeQueue id)
  | enqueue id thread => exact silent (alike.enqueue id thread)
  | acquire id thread => exact silent (alike.acquire id thread)
  | handOver id =>
    exact (agree_handOver alike left right id).map fun _ _ ⟨same, alike⟩ =>
      ⟨congrArg Answer.winner same, alike⟩
  | baseOf thread => exact ⟨congrArg Answer.weight (alike.base thread), alike.enrol thread⟩
  | setBase thread weight => exact silent (alike.setBase thread weight)
  | effective thread =>
    exact (agree_effective alike left right thread).map fun _ _ ⟨same, alike, _, _⟩ =>
      ⟨congrArg Answer.weight same, alike⟩
  | forget thread => exact silent (alike.forget thread)

end Sound

end Tables

end Turnstile
