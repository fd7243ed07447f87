import Turnstile.Proofs.Kernel.Discipline
import Turnstile.Proofs.Kernel.Primitives
import Turnstile.Proofs.Tables.Counting

/-!
# Exits that go through

What the target of a join point needs to exit: the queue has to be live, and one thread at most may
wait on it. Then no step of the exit fails (`Join.exit_ok`): whoever waits is asleep and can be
woken, nobody is left on the queue that is closed, and a record can always be dropped. Afterwards
there is one queue less, and the target is unknown.
-/

namespace Turnstile

open Kernel LawfulMachine

/-- A computation goes on from where its first part ends. -/
theorem Kernel.bind_ok {σ α β : Type} {first : KernelM σ α} {rest : α → KernelM σ β}
    {kernel mid : Kernel σ} {a : α} (ok : first kernel = .ok a mid) :
    (first >>= rest) kernel = rest a mid := by
  show EStateM.bind first rest kernel = _
  unfold EStateM.bind
  rw [ok]

/-- The computation succeeds with `a` and leaves tables and threads as given, and all flags
as they were. -/
structure Kernel.Succeeds {α : Type} (computation : KernelM Uniprocessor α)
    (kernel : Kernel Uniprocessor) (a : α) (tables : Tables) (stage : Stage)
    (after : Kernel Uniprocessor) : Prop where
  ok : computation kernel = .ok a after
  tables : after.tables = tables
  stage : after.machine.stage = stage
  flags : SameFlags kernel.machine after.machine

section

variable {σ α : Type} [LawfulMachine σ] {kernel : Kernel σ} {tables : Tables} {operation : String}

theorem requireMasked_ok (off : Machine.interrupts kernel.machine = false) :
    requireMasked operation kernel = .ok () kernel := by
  unfold requireMasked
  rw [off]
  rfl

theorem updateTables_ok {f : Tables → Except Violation (α × Tables)} {a : α}
    (off : Machine.interrupts kernel.machine = false) (ok : f kernel.tables = .ok (a, tables)) :
    updateTables operation f kernel = .ok a { kernel with tables } := by
  refine (bind_ok (requireMasked_ok off)).trans ?_
  simp only [ok]

theorem changeTables_ok {f : Tables → Except Violation Tables}
    (off : Machine.interrupts kernel.machine = false) (ok : f kernel.tables = .ok tables) :
    changeTables operation f kernel = .ok () { kernel with tables } :=
  updateTables_ok off (by rw [ok]; rfl)

/-- A record can always be dropped, and then the thread ends. Nobody is woken. -/
theorem finish_ok (proper : Proper kernel.machine) {thread : ThreadId}
    (caller : Machine.current kernel.machine = thread)
    (ok : kernel.tables.forget thread = .ok tables) :
    Scheduler.finish kernel = .ok .finished
      (Kernel.withInterrupts { kernel.masked with tables }
        (Machine.interrupts kernel.machine)) := by
  have off := interrupts_masked proper
  have here : currentThread kernel.masked = .ok thread kernel.masked := by
    unfold currentThread
    rw [show Machine.current kernel.masked.machine = thread from
      (current_setInterrupts proper false).trans caller]
  have forgets : changeTables "finish" (·.forget thread) kernel.masked =
      .ok () { kernel.masked with tables } := changeTables_ok off ok
  have still : Machine.interrupts ({ kernel.masked with tables } : Kernel σ).machine = false := off
  unfold Scheduler.finish bracketCall
  dsimp only
  rw [(bind_ok here).trans ((bind_ok forgets).trans (bind_ok (requireMasked_ok still)))]
  rfl

end

section

variable {kernel : Kernel Uniprocessor} {tables : Tables} {α : Type}
  (proper : Proper kernel.machine)
include proper

/-- A bracket around a change of the tables leaves the machine as it was. -/
theorem bracketed_ok {body : KernelM Uniprocessor α} {a : α}
    (ok : body kernel.masked = .ok a { kernel.masked with tables }) :
    ∃ after, Succeeds (bracket body) kernel a tables kernel.machine.stage after := by
  refine ⟨Kernel.withInterrupts { kernel.masked with tables } (Machine.interrupts kernel.machine),
    ?_, rfl, ?_, ?_⟩
  · unfold bracket
    dsimp only
    rw [ok]
  · exact (Uniprocessor.stage_setInterrupts _ _).trans (Uniprocessor.stage_setInterrupts _ _)
  · exact .bracket proper (.refl (setInterrupts_proper proper false))

theorem nextThread_ok {id : QueueId} {winner : Option ThreadId}
    (ok : kernel.tables.handOver id = .ok (winner, tables)) : ∃ after,
      Succeeds (Scheduler.nextThread id) kernel winner tables kernel.machine.stage after :=
  bracketed_ok proper (updateTables_ok (interrupts_masked proper) ok)

theorem closeQueue_ok {id : QueueId} (ok : kernel.tables.closeQueue id = .ok tables) : ∃ after,
    Succeeds (Scheduler.closeQueue id) kernel () tables kernel.machine.stage after :=
  bracketed_ok proper (changeTables_ok (interrupts_masked proper) ok)

/-- A thread that is asleep can be woken by whoever has masked interrupts. -/
theorem wake_ok (off : Machine.interrupts kernel.machine = false) {thread : ThreadId}
    (asleep : kernel.machine.stage.status thread = some .blocked) :
    ∃ after, Succeeds (wake thread) kernel () kernel.tables
      (kernel.machine.stage.rouse thread) after := by
  rcases Uniprocessor.wake_cases asleep with masked | ⟨machine, ok, stage⟩
  · exact absurd masked (ready_masked off)
  · refine ⟨{ kernel with machine }, ?_, rfl, stage,
      ready_proper proper ok, current_ready proper ok, flag_ready proper ok⟩
    refine (bind_ok (requireMasked_ok off)).trans ?_
    unfold machineReady
    rw [show Machine.ready thread kernel.machine = _ from ok]

variable {handed closed : Tables} {id : QueueId} {thread : ThreadId}
  (caller : Machine.current kernel.machine = thread)
  (closes : handed.closeQueue id = .ok closed) (forgets : closed.forget thread = .ok tables)
include caller closes forgets

/-- A queue that nobody waits on is closed, and then the thread ends. -/
theorem closeAndFinish_ok (start : kernel.tables = handed) : ∃ after,
    (do Scheduler.closeQueue id; Scheduler.finish : KernelM Uniprocessor Progress) kernel =
      .ok .finished after ∧ after.tables = tables := by
  rw [← start] at closes
  obtain ⟨next, closing⟩ := closeQueue_ok proper closes
  have caller : Machine.current next.machine = thread := closing.flags.caller.trans caller
  rw [← closing.tables] at forgets
  exact ⟨_, (bind_ok closing.ok).trans (finish_ok closing.flags.proper caller forgets), rfl⟩

/-- A queue is handed to one who is asleep and is woken, or to nobody, then it is closed, and then
the thread ends. -/
theorem handAndLeave_ok (off : Machine.interrupts kernel.machine = false) {winner : Option ThreadId}
    (hands : kernel.tables.handOver id = .ok (winner, handed))
    (asleep : ∀ joiner, winner = some joiner →
      kernel.machine.stage.status joiner = some .blocked) : ∃ after,
    (do
      match ← Scheduler.nextThread id with
      | some joiner => wake joiner
      | none => pure ()
      Scheduler.closeQueue id
      Scheduler.finish : KernelM Uniprocessor Progress) kernel = .ok .finished after ∧
        after.tables = tables := by
  obtain ⟨next, handing⟩ := nextThread_ok proper hands
  have caller : Machine.current next.machine = thread := handing.flags.caller.trans caller
  cases winner with
  | none =>
    obtain ⟨after, ok, tables⟩ :=
      closeAndFinish_ok handing.flags.proper caller closes forgets handing.tables
    exact ⟨after, (bind_ok handing.ok).trans ok, tables⟩
  | some joiner =>
    -- handing over does not touch the machine, so the joiner is asleep as it was before
    have asleep : next.machine.stage.status joiner = some .blocked :=
      handing.stage ▸ asleep joiner rfl
    have still : Machine.interrupts next.machine = false :=
      (handing.flags.interrupts_eq proper).trans off
    obtain ⟨woken, waking⟩ := wake_ok handing.flags.proper still asleep
    obtain ⟨after, ok, tables⟩ := closeAndFinish_ok waking.flags.proper
      (waking.flags.caller.trans caller) closes forgets (waking.tables.trans handing.tables)
    exact ⟨after, (bind_ok handing.ok).trans ((bind_ok waking.ok).trans ok), tables⟩

end

variable {kernel : Kernel Uniprocessor} {scene : Scene} {index : Nat} {point : Join} {queue : Queue}

/-- Where one thread at most waits, whoever is taken from the waiters is all of them. -/
theorem waiting_eq_toList {winner : Option ThreadId} (few : queue.waiting.length ≤ 1)
    (waits : ∀ thread, winner = some thread → thread ∈ queue.waiting)
    (nobody : winner = none → queue.waiting = []) : queue.waiting = winner.toList := by
  cases winner with
  | none => exact nobody rfl
  | some winner =>
    have here := waits winner rfl
    obtain ⟨thread, only⟩ := List.length_eq_one_iff.mp
      (Nat.le_antisymm few (List.length_pos_of_mem here))
    rw [only, List.mem_singleton] at here
    rw [only, here]
    rfl

/-- Nobody is left on a queue on which one thread at most has waited. -/
theorem left_of_handOver {tables handed : Tables} {id : QueueId} {winner : Option ThreadId}
    (live : tables.queues.get? id = some queue) (few : queue.waiting.length ≤ 1)
    (waits : ∀ thread, winner = some thread → thread ∈ queue.waiting)
    (nobody : winner = none → queue.waiting = [])
    (bare : handed.ledger.bare = (tables.ledger.handOn id winner).bare) :
    ∃ left, handed.queues.get? id = some left ∧ left.waiting = [] := by
  have queues : handed.queues.get? = (tables.ledger.handOn id winner).queue? :=
    Ledger.queue?_of_bare bare
  have reached : ((tables.ledger.handOn id winner).queue? id).isSome = true := by
    rw [Ledger.isSome_handOn, show tables.ledger.queue? id = some queue from live]
    rfl
  obtain ⟨left, there⟩ := Option.isSome_iff_exists.mp reached
  refine ⟨left, queues ▸ there, ?_⟩
  rw [← Ledger.waiters_of_queue? there, Ledger.waiters_handOn, if_pos rfl,
    Ledger.waiters_of_queue? (show tables.ledger.queue? id = some queue from live)]
  rw [waiting_eq_toList few waits nobody]
  cases winner <;> simp

/-- What comes of looking a join point up. -/
theorem Join.lookup_eq {σ : Type} (index : Nat) (kernel : Kernel σ) : Join.lookup index kernel =
    (match kernel.joins[index]? with
    | some point => (pure point : KernelM σ Join)
    | none => throw (Violation.unknownObject "join point" index)) kernel := rfl

/-- Whoever is not the target is refused before anything is touched. -/
theorem Join.exit_refused (foreign : ∀ point : Join, kernel.joins[index]? = some point →
      Machine.current kernel.machine ≠ point.target) :
    ∃ violation, Join.exit index kernel = .error violation kernel ∧
      ∀ id waiters, violation ≠ .closesWaitedOn id waiters := by
  cases made : kernel.joins[index]? with
  | none =>
    have found : Join.lookup index kernel = .error (.unknownObject "join point" index) kernel := by
      rw [Join.lookup_eq, made]
      rfl
    refine ⟨.unknownObject "join point" index, ?_, nofun⟩
    show EStateM.bind (Join.lookup index) _ kernel = _
    unfold EStateM.bind
    rw [found]
  | some point =>
    have found : Join.lookup index kernel = .ok point kernel := by
      rw [Join.lookup_eq, made]
      rfl
    have here : currentThread kernel = .ok (Machine.current kernel.machine) kernel := rfl
    refine ⟨.exitsThroughOther (Machine.current kernel.machine) point.target, ?_, nofun⟩
    refine (bind_ok found).trans ((bind_ok here).trans ?_)
    rw [if_neg (foreign point made)]
    rfl

/-- The target of a join point whose queue is live, and has one waiter at most, exits
without fail. -/
theorem Join.exit_ok (shows : kernel.Shows scene) (sane : scene.stage.Sane)
    (settled : scene.Settled)
    (made : scene.joins[index]? = some point) (target : scene.current = point.target)
    (live : scene.ledger.queue? point.queue = some queue) (few : queue.waiting.length ≤ 1) :
    ∃ after, Join.exit index kernel = .ok .finished after ∧
      after.tables.queues.size + 1 = kernel.tables.queues.size ∧
      after.tables.knows point.target = false := by
  have proper : Proper kernel.machine := by
    show kernel.machine.stage.Sane
    exact shows.stage ▸ sane
  have caller : Machine.current kernel.machine = point.target := by
    rw [← target, ← shows.scene_eq]
    rfl
  -- The tables can hand the queue over, close it and drop the record, one after another.
  rw [← shows.queue?] at live
  obtain ⟨winner, handed, hands, sound, waits, nobody, bare⟩ := Tables.handOver_ok shows.sound live
  obtain ⟨left, live', empty⟩ := left_of_handOver live few waits nobody bare
  obtain ⟨closed, closes, sound', -⟩ := Tables.closeQueue_ok sound live' empty
  obtain ⟨gone, forgets, -, -⟩ := Tables.forget_ok sound' point.target
  let mid : Kernel Uniprocessor := { kernel.masked with
    joins := kernel.masked.joins.modify index fun point => { point with done := true } }
  have proper' : Proper mid.machine := setInterrupts_proper proper false
  have caller' : Machine.current mid.machine = point.target :=
    (current_setInterrupts proper false).trans caller
  have asleep : ∀ joiner, winner = some joiner →
    mid.machine.stage.status joiner = some .blocked := by
    intro joiner chosen
    rw [show mid.machine.stage = scene.stage from
      (Uniprocessor.stage_setInterrupts _ _).trans shows.stage]
    exact settled.asleep_of_queue (shows.queue? ▸ live) (waits joiner chosen)
  obtain ⟨after, body, rfl⟩ :=
    handAndLeave_ok proper' caller' closes forgets (interrupts_masked proper) hands asleep
  refine ⟨after.withInterrupts (Machine.interrupts kernel.machine), ?_, ?_,
    (Tables.forgets forgets).1⟩
  · have joins : kernel.joins = scene.joins := congrArg (·.joins) shows.scene_eq
    have found : Join.lookup index kernel = .ok point kernel := by
      rw [Join.lookup_eq, joins, made]
      rfl
    have here : currentThread kernel = .ok point.target kernel := by rw [← caller]; rfl
    have changed : Join.amend index (fun point => { point with done := true }) kernel.masked =
        .ok () mid := rfl
    refine (bind_ok found).trans ((bind_ok here).trans ?_)
    rw [if_pos rfl]
    unfold bracketCall
    dsimp only
    rw [(bind_ok changed).trans body]
  · rw [← Tables.size_of_handOver hands, ← Tables.size_of_closeQueue closes,
      ← (Tables.forgets forgets).2]
    rfl

end Turnstile
