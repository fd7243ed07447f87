import Turnstile.Proofs.Kernel.Scene
import Turnstile.Proofs.Tables.Reachable

/-!
# What calls do to a scene

One theorem for each call that the others are made of: tables, sleeping and waking, making and
looking up, and the scheduling calls. What a larger call does is put together from these, so no
proof about it looks into tables or machine again.

* **Tables** (`updateTables_ends`, `readTables_ends`): an operation of the tables shows as what it
  does to the ledger.
* **The machine** (`sleep_ends`, `wake_ends`): a thread that sleeps or is woken shows
  on the stage. Whoever is woken has to be asleep.
-/

namespace Turnstile

open Kernel

variable {α : Type} {allowed : Violation → Prop}
  (usual : ∀ violation : Violation, violation.ordinary = true → allowed violation)
  {kernel : Kernel Uniprocessor} {scene : Scene}

/-! ## Tables -/

include usual in
/-- With interrupts on, a call that asks for masked ones fails; otherwise it goes on. -/
theorem Ends.requireMasked {operation : String} {next : Unit → KernelM Uniprocessor α}
    {R : α → Scene → Prop} (h : Ends allowed (next ()) kernel R) :
    Ends allowed (Kernel.requireMasked operation >>= next) kernel R := by
  have outcome : (Kernel.requireMasked operation >>= next) kernel =
        .error (.interruptsEnabled operation) kernel ∨
      (Kernel.requireMasked operation >>= next) kernel = next () kernel := by
    show EStateM.bind (Kernel.requireMasked operation) next kernel = _ ∨
      EStateM.bind (Kernel.requireMasked operation) next kernel = _
    unfold EStateM.bind Kernel.requireMasked
    cases Machine.interrupts kernel.machine with
    | true => exact .inl rfl
    | false => exact .inr rfl
  unfold Ends at h ⊢
  rcases outcome with failed | goes
  · rw [failed]
    exact ⟨rfl, usual _ rfl⟩
  · rw [goes]
    exact h

section

variable (shows : kernel.Shows scene)
include usual shows

theorem readTables_ends {operation : String} {f : Tables → Except Violation α}
    (refuses : ∀ violation, f kernel.tables = .error violation → violation.ordinary = true) :
    Ends allowed (readTables operation f) kernel fun a after =>
      after = scene ∧ f kernel.tables = .ok a := by
  refine .requireMasked usual ?_
  cases h : f kernel.tables with
  | ok a => exact .of_ok (by rw [h]) shows rfl ⟨rfl, rfl⟩
  | error violation => exact .of_error (by rw [h]) rfl (usual violation (refuses violation h))

theorem updateTables_ends {operation : String}
    {f : Tables → Except Violation (α × Tables)} {R : α → Scene → Prop}
    (performs : ∀ a tables, f kernel.tables = .ok (a, tables) →
      tables.Sound ∧ R a { scene with ledger := tables.ledger.bare })
    (refuses : ∀ violation, f kernel.tables = .error violation → violation.ordinary = true) :
    Ends allowed (updateTables operation f) kernel R := by
  refine .requireMasked usual ?_
  cases h : f kernel.tables with
  | ok done =>
    obtain ⟨sound, holds⟩ := performs done.1 done.2 h
    exact .of_ok (by rw [h]) (shows.tables sound rfl) rfl holds
  | error violation => exact .of_error (by rw [h]) rfl (usual violation (refuses violation h))

theorem changeTables_ends {operation : String} {f : Tables → Except Violation Tables}
    {R : Scene → Prop}
    (performs : ∀ tables, f kernel.tables = .ok tables →
      tables.Sound ∧ R { scene with ledger := tables.ledger.bare })
    (refuses : ∀ violation, f kernel.tables = .error violation → violation.ordinary = true) :
    Ends allowed (changeTables operation f) kernel fun _ after => R after := by
  refine updateTables_ends usual shows (fun a tables h => ?_) fun violation h => ?_
  · cases hf : f kernel.tables with
    | ok after =>
      rw [hf] at h
      cases h
      exact performs _ hf
    | error other =>
      rw [hf] at h
      cases h
  · cases hf : f kernel.tables with
    | ok after =>
      rw [hf] at h
      cases h
    | error other =>
      rw [hf] at h
      cases h
      exact refuses violation hf

/-! ## The machine -/

theorem machineSleep_ends : Ends allowed machineSleep kernel fun _ after =>
    ∃ thread, scene.stage.running = some thread ∧
      after = { scene with stage := scene.stage.block thread } := by
  rcases Uniprocessor.sleep_cases kernel.machine with
    masked | idle | ⟨thread, machine, runs, ok, stage⟩
  · exact .of_error (by rw [machineSleep, show Machine.sleep kernel.machine = _ from masked])
      rfl (usual _ rfl)
  · exact .of_error (by rw [machineSleep, show Machine.sleep kernel.machine = _ from idle])
      rfl (usual _ rfl)
  · have fault : machine.fault = kernel.machine.fault := congrArg (·.fault) stage
    rw [shows.stage] at stage
    refine .of_ok (by rw [machineSleep, show Machine.sleep kernel.machine = _ from ok])
      (shows.machine stage) fault ⟨thread, ?_, rfl⟩
    rw [← shows.stage]
    exact runs

theorem sleep_ends : Ends allowed Kernel.sleep kernel fun _ after =>
    ∃ thread, scene.stage.running = some thread ∧
      after = { scene with stage := scene.stage.block thread } :=
  .requireMasked usual (machineSleep_ends usual shows)

theorem wake_ends {thread : ThreadId} (asleep : scene.stage.status thread = some .blocked) :
    Ends allowed (Kernel.wake thread) kernel fun _ after =>
      after = { scene with stage := scene.stage.rouse thread } := by
  refine .requireMasked usual ?_
  rw [← shows.stage] at asleep
  rcases Uniprocessor.wake_cases asleep with masked | ⟨machine, ok, stage⟩
  · exact .of_error
      (by rw [machineReady, show Machine.ready thread kernel.machine = _ from masked]) rfl
      (usual _ rfl)
  · have fault : machine.fault = kernel.machine.fault := congrArg (·.fault) stage
    rw [shows.stage] at stage
    exact .of_ok (by rw [machineReady, show Machine.ready thread kernel.machine = _ from ok])
      (shows.machine stage) fault rfl

omit usual in
/-- A thread that offers the processor goes behind the others; the idle context keeps it. -/
theorem machineYield_ends : Ends allowed machineYield kernel fun keeps after =>
    (keeps = true ∧ scene.stage.running = none ∧ after = scene) ∨
      ∃ thread, keeps = false ∧ scene.stage.running = some thread ∧
        after = { scene with stage := scene.stage.requeue thread } := by
  rcases Uniprocessor.yield_cases kernel.machine with
    ⟨idle, kept⟩ | ⟨thread, machine, runs, left, stage⟩
  · refine .of_ok (by rw [machineYield, show Machine.yield kernel.machine = _ from kept])
      shows rfl (.inl ⟨rfl, ?_, rfl⟩)
    rw [← shows.stage]
    exact idle
  · have fault : machine.fault = kernel.machine.fault := congrArg (·.fault) stage
    rw [shows.stage] at stage
    refine .of_ok (by rw [machineYield, show Machine.yield kernel.machine = _ from left])
      (shows.machine stage) fault (.inr ⟨thread, rfl, ?_, rfl⟩)
    rw [← shows.stage]
    exact runs

/-! ## Scheduling calls -/

theorem newQueue_ends (donation : Bool) :
    Ends allowed (Scheduler.newQueue donation) kernel fun id after =>
      Scene.Makes (kernel.tables.queues.size < 4294967296) donation scene id after := by
  refine .bracket (updateTables_ends usual shows.masked (fun id tables h => ?_) (by simp))
  cases h
  refine ⟨Tables.newQueue_ok shows.sound donation, ?_⟩
  rcases Tables.newQueue_moves kernel.tables donation with ⟨free, placed⟩ | ⟨full, same⟩
  · refine .inl ⟨(congrFun shows.queue? _).symm.trans free, ?_⟩
    show { scene with ledger := (kernel.tables.newQueue donation).2.ledger.bare } = _
    rw [placed, ← shows.ledger]
    rfl
  · refine .inr ⟨full, ?_⟩
    show { scene with ledger := (kernel.tables.newQueue donation).2.ledger.bare } = _
    rw [same, shows.ledger]

theorem closeQueue_ends (id : QueueId) :
    Ends allowed (Scheduler.closeQueue id) kernel fun _ after =>
      (∃ queue, scene.ledger.queue? id = some queue ∧ queue.waiting = []) ∧
        after = { scene with ledger := scene.ledger.close id } := by
  refine .bracket (changeTables_ends usual shows.masked (fun tables h => ?_)
    fun violation => Tables.closeQueue_refuses shows.sound)
  obtain ⟨queue, live, nobody⟩ := Tables.live_of_closeQueue h
  obtain ⟨after, ok, sound, bare⟩ := Tables.closeQueue_ok shows.sound live nobody
  cases h.symm.trans ok
  refine ⟨sound, ⟨queue, (congrFun shows.queue? id).symm.trans live, nobody⟩, ?_⟩
  rw [bare, ← shows.ledger]
  rfl

theorem waitForAccess_ends (id : QueueId) (thread : ThreadId) :
    Ends allowed (Scheduler.waitForAccess id thread) kernel fun _ after =>
      (∃ queue, scene.ledger.queue? id = some queue ∧ queue.owner ≠ some thread) ∧
        after = { scene with ledger := scene.ledger.join id thread } := by
  refine changeTables_ends usual shows (fun tables h => ?_) fun violation => Tables.enqueue_refuses
  obtain ⟨⟨queue, can⟩, sound, bare⟩ := Tables.enqueue_ok shows.sound h
  refine ⟨sound, ⟨queue, (congrFun shows.queue? id).symm.trans can.live, can.foreign⟩, ?_⟩
  rw [bare, Ledger.bare_join, shows.ledger]

theorem acquire_ends (id : QueueId) (thread : ThreadId) :
    Ends allowed (Scheduler.acquire id thread) kernel fun _ after =>
      (∃ queue, scene.ledger.queue? id = some queue ∧ thread ∉ queue.waiting) ∧
        after = { scene with ledger := scene.ledger.install id thread } := by
  refine changeTables_ends usual shows (fun tables h => ?_) fun violation => Tables.acquire_refuses
  obtain ⟨queue, live, absent, sound, bare⟩ := Tables.acquire_ok shows.sound h
  refine ⟨sound, ⟨queue, (congrFun shows.queue? id).symm.trans live, absent⟩, ?_⟩
  rw [bare, Ledger.bare_install, shows.ledger]

/-- A queue is handed over as far as the tables go; the winner is still asleep. -/
theorem nextThread_ends (id : QueueId) :
    Ends allowed (Scheduler.nextThread id) kernel fun winner after =>
      (∃ queue, scene.ledger.queue? id = some queue ∧
        (∀ thread, winner = some thread → thread ∈ queue.waiting) ∧
        (winner = none → queue.waiting = [])) ∧
      after = { scene with ledger := scene.ledger.handOn id winner } := by
  refine .bracket (updateTables_ends usual shows.masked (fun winner tables h => ?_)
    fun violation => Tables.handOver_refuses shows.sound)
  obtain ⟨queue, live⟩ := Tables.live_of_handOver h
  obtain ⟨winner', after, ok, sound, waits, nobody, bare⟩ := Tables.handOver_ok shows.sound live
  cases h.symm.trans ok
  refine ⟨sound, ⟨queue, (congrFun shows.queue? id).symm.trans live, waits, nobody⟩, ?_⟩
  rw [bare, Ledger.bare_handOn, ← shows.ledger]

theorem owner_ends (id : QueueId) :
    Ends allowed (Scheduler.owner id) kernel fun owner after =>
      after = scene ∧ ∃ queue, scene.ledger.queue? id = some queue ∧ owner = queue.owner := by
  refine .bracket ((readTables_ends usual shows.masked fun violation h => ?_).imp ?_)
  · cases hq : kernel.tables.queue id with
    | ok queue => simp [masked, withInterrupts, hq, Except.map] at h
    | error other =>
      simp only [masked, withInterrupts, hq, Except.map, Except.error.injEq] at h
      exact h ▸ Tables.queue_refuses hq
  · rintro owner after ⟨rfl, h⟩
    obtain ⟨queue, live, rfl⟩ := Tables.ok_of_map h
    exact ⟨rfl, queue, (congrFun shows.queue? id).symm.trans (Tables.queue_eq_ok_iff.mp live), rfl⟩

/-- A record is dropped. -/
theorem forget_ends {operation : String} (thread : ThreadId) :
    Ends allowed (changeTables operation (·.forget thread)) kernel fun _ after =>
      after = { scene with ledger := scene.ledger.dismiss thread } := by
  obtain ⟨after, ok, sound, bare⟩ := Tables.forget_ok shows.sound thread
  refine changeTables_ends usual shows (fun tables h => ?_) (by simp [ok])
  cases h.symm.trans ok
  refine ⟨sound, ?_⟩
  rw [bare, Ledger.bare_dismiss, shows.ledger]

theorem finish_ends : Ends allowed Scheduler.finish kernel fun progress after =>
    progress = .finished ∧ after = { scene with ledger := scene.ledger.dismiss scene.current } := by
  refine .bracketCall fun saved => .current shows.masked ?_
  refine (forget_ends usual shows.masked scene.current).bind ?_
  rintro _ _ kernel rfl shows
  exact .requireMasked usual (.pure shows ⟨rfl, rfl⟩)

end

end Turnstile
