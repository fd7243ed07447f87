import Turnstile.Kernel.Request
import Turnstile.Proofs.Machine.Stage
import Turnstile.Proofs.Tables.Refusing

/-!
# Scenes

The scene is what threads on a kernel can do to each other: where they stand, who owns and waits
for what, who sleeps, and what was made. It leaves out interrupt flags and weights kept.

* **`Kernel.scene`** reads it off a kernel, and a kernel **shows** a scene (`Kernel.Shows`) if its
  tables are sound besides.
* **`Ends`** is what is proved of a computation on a kernel: with an answer it leaves a kernel that
  shows a scene as described, and otherwise it fails with a violation that is allowed. Masked
  interrupts are not kept track of, since whoever finds them on fails with an ordinary violation.
-/

namespace Turnstile

/-- What threads can do to each other. -/
@[ext]
structure Scene where
  stage : Stage
  /-- The tables' ledger, without weights kept. -/
  ledger : Ledger
  sleepers : SleepQueue
  locks : List Lock
  conditions : List Condition
  joins : List Join
  memory : Memory

namespace Scene

/-- The context that holds the processor. -/
def current (scene : Scene) : ThreadId := scene.stage.current

/-- Nothing is different but base weights, records that hold nothing, and variables. -/
def Quiet (scene after : Scene) : Prop :=
  ∃ ledger memory, ledger.queue? = scene.ledger.queue? ∧ after = { scene with ledger, memory }

theorem Quiet.refl (scene : Scene) : scene.Quiet scene := ⟨scene.ledger, scene.memory, rfl, rfl⟩

theorem Quiet.trans {scene next after : Scene} (h : scene.Quiet next) (ho : next.Quiet after) :
    scene.Quiet after := by
  obtain ⟨ledger, memory, same, rfl⟩ := h
  obtain ⟨ledger', memory', same', rfl⟩ := ho
  exact ⟨ledger', memory', same'.trans same, rfl⟩

/-- A queue is made: it takes a handle that reached nothing. Where there is no room for another
handle, nothing may be reached that was not. -/
def Makes (room : Prop) (donation : Bool) (scene : Scene) (id : QueueId) (after : Scene) : Prop :=
  (scene.ledger.queue? id = none ∧
    after = { scene with
      ledger := scene.ledger.place id (.fresh scene.ledger.policy donation) }) ∨
  (¬ room ∧ after = scene)

/-- The queue has gone to one who waited on it and is ready now, or to nobody. -/
def handOn (scene : Scene) (id : QueueId) (winner : Option ThreadId) : Scene :=
  { scene with
    ledger := scene.ledger.handOn id winner
    stage := winner.elim scene.stage scene.stage.rouse }

/-- A queue is handed to one of its waiters, and to nobody only if nobody waits. -/
def HandsOn (scene : Scene) (id : QueueId) (after : Scene) : Prop :=
  ∃ queue winner, scene.ledger.queue? id = some queue ∧
    (∀ thread, winner = some thread → thread ∈ queue.waiting) ∧
    (winner = none → queue.waiting = []) ∧ after = scene.handOn id winner

/-- The running thread waits on a queue and sleeps. -/
def park (scene : Scene) (id : QueueId) (thread : ThreadId) : Scene :=
  { scene with ledger := scene.ledger.join id thread, stage := scene.stage.block thread }

theorem quiet_ledger (scene : Scene) {ledger : Ledger}
    (same : ledger.queue? = scene.ledger.queue?) : scene.Quiet { scene with ledger } :=
  ⟨ledger, scene.memory, same, rfl⟩

end Scene

namespace Kernel

/-- The scene on a kernel. -/
def scene (kernel : Kernel Uniprocessor) : Scene :=
  { stage := kernel.machine.stage
    ledger := kernel.tables.ledger.bare
    sleepers := kernel.sleepers
    locks := kernel.locks
    conditions := kernel.conditions
    joins := kernel.joins
    memory := kernel.memory }

/-- The kernel shows the scene, and its tables are sound. -/
structure Shows (kernel : Kernel Uniprocessor) (scene : Scene) : Prop where
  sound : kernel.tables.Sound
  scene_eq : kernel.scene = scene

variable {kernel : Kernel Uniprocessor} {scene : Scene}

@[simp] theorem scene_withInterrupts (kernel : Kernel Uniprocessor) (enabled : Bool) :
    (kernel.withInterrupts enabled).scene = kernel.scene :=
  Scene.ext (Uniprocessor.stage_setInterrupts kernel.machine enabled) rfl rfl rfl rfl rfl rfl

@[simp] theorem scene_masked (kernel : Kernel Uniprocessor) :
    kernel.masked.scene = kernel.scene :=
  scene_withInterrupts kernel false

/-- Flags are not violations. -/
@[simp] theorem fault_withInterrupts (kernel : Kernel Uniprocessor) (enabled : Bool) :
    (kernel.withInterrupts enabled).machine.fault = kernel.machine.fault :=
  congrArg (·.fault) (Uniprocessor.stage_setInterrupts kernel.machine enabled)

@[simp] theorem fault_masked (kernel : Kernel Uniprocessor) :
    kernel.masked.machine.fault = kernel.machine.fault :=
  fault_withInterrupts kernel false

theorem Shows.masked (shows : kernel.Shows scene) : kernel.masked.Shows scene :=
  ⟨shows.sound, (scene_masked kernel).trans shows.scene_eq⟩

theorem Shows.withInterrupts (shows : kernel.Shows scene) (enabled : Bool) :
    (kernel.withInterrupts enabled).Shows scene :=
  ⟨shows.sound, (scene_withInterrupts kernel enabled).trans shows.scene_eq⟩

theorem Shows.ledger (shows : kernel.Shows scene) : kernel.tables.ledger.bare = scene.ledger :=
  congrArg (·.ledger) shows.scene_eq

theorem Shows.queue? (shows : kernel.Shows scene) :
    kernel.tables.queues.get? = scene.ledger.queue? :=
  congrArg (·.ledger.queue?) shows.scene_eq

theorem Shows.stage (shows : kernel.Shows scene) : kernel.machine.stage = scene.stage :=
  congrArg (·.stage) shows.scene_eq

/-- Sound tables put in place of others show their own ledger. -/
theorem Shows.tables (shows : kernel.Shows scene) {tables : Tables} (sound : tables.Sound)
    {ledger : Ledger} (bare : tables.ledger.bare = ledger) :
    Shows { kernel with tables } { scene with ledger } := by
  refine ⟨sound, ?_⟩
  rw [← shows.scene_eq, ← bare]
  rfl

/-- Another machine in place shows its own stage. -/
theorem Shows.machine (shows : kernel.Shows scene) {machine : Uniprocessor} {stage : Stage}
    (same : machine.stage = stage) : Shows { kernel with machine } { scene with stage } := by
  refine ⟨shows.sound, ?_⟩
  rw [← shows.scene_eq, ← same]
  rfl

/-- Giving up a call puts back flags. -/
theorem fault_unwind (owed : List Task) (kernel : Kernel Uniprocessor) :
    (unwind owed kernel).machine.fault = kernel.machine.fault := by
  induction owed generalizing kernel with
  | nil => rfl
  | cons task rest ih =>
    cases task with
    | leave saved => exact (ih _).trans (fault_withInterrupts kernel saved)
    | confirm _ => exact ih kernel
    | acquire _ => exact ih kernel
    | recheck _ _ _ => exact ih kernel
    | wakeDue _ => exact ih kernel

end Kernel

/-! ## What is proved of computations -/

/-- With an answer, the computation leaves a kernel that shows a scene of which `R` holds;
otherwise it fails with a violation that is allowed. Either way no thread has ended meanwhile by a
violation of its own. -/
def Ends {α : Type} (allowed : Violation → Prop) (computation : KernelM Uniprocessor α)
    (kernel : Kernel Uniprocessor) (R : α → Scene → Prop) : Prop :=
  match computation kernel with
  | .ok a after =>
    after.machine.fault = kernel.machine.fault ∧ ∃ scene, after.Shows scene ∧ R a scene
  | .error violation after => after.machine.fault = kernel.machine.fault ∧ allowed violation

namespace Ends

open Kernel

variable {α β : Type} {allowed : Violation → Prop} {kernel : Kernel Uniprocessor} {scene : Scene}
  {R S : α → Scene → Prop}

theorem of_ok {computation : KernelM Uniprocessor α} {a : α} {after : Kernel Uniprocessor}
    (ok : computation kernel = .ok a after) (shows : after.Shows scene)
    (fault : after.machine.fault = kernel.machine.fault) (holds : R a scene) :
    Ends allowed computation kernel R := by
  unfold Ends
  rw [ok]
  exact ⟨fault, scene, shows, holds⟩

theorem of_error {computation : KernelM Uniprocessor α} {violation : Violation}
    {after : Kernel Uniprocessor} (failed : computation kernel = .error violation after)
    (fault : after.machine.fault = kernel.machine.fault) (h : allowed violation) :
    Ends allowed computation kernel R := by
  unfold Ends
  rw [failed]
  exact ⟨fault, h⟩

theorem imp {computation : KernelM Uniprocessor α} (h : Ends allowed computation kernel R)
    (weaker : ∀ a scene, R a scene → S a scene) : Ends allowed computation kernel S := by
  unfold Ends at *
  split at h
  · obtain ⟨fault, scene, shows, holds⟩ := h
    exact ⟨fault, scene, shows, weaker _ _ holds⟩
  · exact h

theorem bind {computation : KernelM Uniprocessor α} {next : α → KernelM Uniprocessor β}
    {S : β → Scene → Prop} (h : Ends allowed computation kernel R)
    (rest : ∀ a scene kernel, R a scene → kernel.Shows scene → Ends allowed (next a) kernel S) :
    Ends allowed (computation >>= next) kernel S := by
  unfold Ends at h ⊢
  show match EStateM.bind computation next kernel with | .ok a after => _ | .error violation _ => _
  unfold EStateM.bind
  split at h
  · rename_i a after done
    obtain ⟨fault, scene, shows, holds⟩ := h
    have ends := rest a scene after holds shows
    unfold Ends at ends
    rw [done, ← fault]
    exact ends
  · rename_i violation after failed
    rw [failed]
    exact h

theorem pure {a : α} (shows : kernel.Shows scene) (holds : R a scene) :
    Ends allowed (Pure.pure a) kernel R :=
  ⟨rfl, scene, shows, holds⟩

theorem throw {violation : Violation} (h : allowed violation) :
    Ends allowed (MonadExcept.throw violation) kernel R :=
  ⟨rfl, h⟩

/-- Reading the state goes on with it. -/
theorem get {next : Kernel Uniprocessor → KernelM Uniprocessor α}
    (h : Ends allowed (next kernel) kernel R) :
    Ends allowed (MonadState.get >>= next) kernel R :=
  h

/-- Asking for the current context goes on with it. -/
theorem current {next : ThreadId → KernelM Uniprocessor α} (shows : kernel.Shows scene)
    (h : Ends allowed (next scene.current) kernel R) :
    Ends allowed (currentThread >>= next) kernel R := by
  rw [← shows.scene_eq] at h
  exact h

theorem bracket {body : KernelM Uniprocessor α} (h : Ends allowed body kernel.masked R) :
    Ends allowed (Kernel.bracket body) kernel R := by
  unfold Ends at h ⊢
  unfold Kernel.bracket
  dsimp only
  split at h
  · rename_i a after done
    obtain ⟨fault, scene, shows, holds⟩ := h
    rw [done]
    exact ⟨by simpa using fault, scene, shows.withInterrupts _, holds⟩
  · rename_i violation after failed
    rw [failed]
    exact ⟨by simpa using h.1, h.2⟩

/-- A call that switches away within its bracket owes the flag last. -/
theorem bracketCall {body : KernelM Uniprocessor Progress} {R : Progress → Scene → Prop}
    (h : ∀ saved, Ends allowed body kernel.masked fun progress scene =>
      R (progress.owing [.leave saved]) scene) :
    Ends allowed (Kernel.bracketCall body) kernel R := by
  have h := h (Machine.interrupts kernel.machine)
  unfold Ends at h ⊢
  unfold Kernel.bracketCall
  dsimp only
  split at h
  · rename_i progress after done
    obtain ⟨fault, scene, shows, holds⟩ := h
    rw [done]
    cases progress with
    | done reply => exact ⟨by simpa using fault, scene, shows.withInterrupts _, holds⟩
    | switched owed => exact ⟨by simpa using fault, scene, shows, holds⟩
    | finished => exact ⟨by simpa using fault, scene, shows.withInterrupts _, holds⟩
  · rename_i violation after failed
    rw [failed]
    exact ⟨by simpa using h.1, h.2⟩

end Ends

end Turnstile
