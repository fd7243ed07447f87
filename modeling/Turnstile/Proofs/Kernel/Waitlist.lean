import Mathlib.Data.List.Perm.Basic
import Turnstile.Proofs.Kernel.Scene

/-!
# Where threads wait

A thread that is asleep waits in one of three kinds of places: on a queue, in the line of a
condition, or for the alarm.

* **`Scene.waitlist`** is who waits at a place.
* **`Scene.Settled`**: every sleeping thread waits at exactly one place, once, and nobody
  else waits.
* **`Scene.SettledBut`** lets some threads, the strays, sleep without waiting anywhere. So threads
  sleep that have reached under the operations by which threads meet.
* A scene that differs by one thread going to sleep at a place (`SettledBut.park`) or by some of
  those who wait at a place being woken (`SettledBut.rouse`) is settled again. Nothing else that
  threads do has a part in waiting (`SettledBut.congr`).
-/

namespace Turnstile

/-- A place to wait at. -/
inductive Place
  | queue (id : QueueId)
  /-- The line of the condition in a place of the kernel's list. -/
  | condition (index : Nat)
  | alarm
deriving DecidableEq, Repr

namespace Scene

/-- Who waits at a place. -/
def waitlist (scene : Scene) : Place → List ThreadId
  | .queue id => scene.ledger.waiters id
  | .condition index => ((scene.conditions[index]?).map (·.waiting)).getD []
  | .alarm => scene.sleepers.sleepers.map (·.thread)

/-- Whether a thread is asleep. -/
def Asleep (scene : Scene) (thread : ThreadId) : Prop := scene.stage.status thread = some .blocked

/-- Whoever waits is asleep and waits at one place, once. Every sleeping thread waits, but
for strays. -/
structure SettledBut (strays : ThreadId → Prop) (scene : Scene) : Prop where
  nodup : ∀ place, (scene.waitlist place).Nodup
  apart : ∀ {place other thread}, thread ∈ scene.waitlist place → thread ∈ scene.waitlist other →
    place = other
  asleep : ∀ {place thread}, thread ∈ scene.waitlist place → scene.Asleep thread
  waits : ∀ {thread}, scene.Asleep thread → ¬ strays thread → ∃ place, thread ∈ scene.waitlist place

/-- Every sleeping thread waits at exactly one place, once, and nobody else waits. -/
abbrev Settled (scene : Scene) : Prop := SettledBut (fun _ => False) scene

/-- Whoever waits is asleep and waits at one place, once. -/
abbrev Placed (scene : Scene) : Prop := SettledBut (fun _ => True) scene

theorem SettledBut.asleep_iff {scene : Scene} (settled : scene.Settled) (thread : ThreadId) :
    scene.Asleep thread ↔ ∃ place, thread ∈ scene.waitlist place :=
  ⟨fun asleep => settled.waits asleep id, fun ⟨_, waits⟩ => settled.asleep waits⟩

namespace SettledBut

variable {strays : ThreadId → Prop} {scene after : Scene} (settled : scene.SettledBut strays)
  {place : Place} {thread : ThreadId}
include settled

theorem asleep_of_waiters {id : QueueId} (waits : thread ∈ scene.ledger.waiters id) :
    scene.Asleep thread :=
  settled.asleep (show thread ∈ scene.waitlist (.queue id) from waits)

theorem not_waits (awake : ¬ scene.Asleep thread) (place : Place) :
    thread ∉ scene.waitlist place :=
  fun waits => awake (settled.asleep waits)

/-- Nothing is different but what has no part in waiting. -/
theorem congr (lists : ∀ place, after.waitlist place = scene.waitlist place)
    (asleep : ∀ thread, after.Asleep thread ↔ scene.Asleep thread) : after.SettledBut strays where
  nodup place := by
    rw [lists]
    exact settled.nodup place
  apart := by
    intro place other thread
    rw [lists, lists]
    exact settled.apart
  asleep := by
    intro place thread
    rw [lists, asleep]
    exact settled.asleep
  waits := by
    intro thread
    simp only [lists, asleep]
    exact settled.waits

variable (place) in
/-- A thread that was awake has gone to sleep at a place. -/
theorem park (awake : ¬ scene.Asleep thread)
    (here : (after.waitlist place).Perm (thread :: scene.waitlist place))
    (others : ∀ other, other ≠ place → after.waitlist other = scene.waitlist other)
    (asleep : ∀ other, after.Asleep other ↔ other = thread ∨ scene.Asleep other) :
    after.SettledBut strays := by
  -- Whoever is awake is on no list, so the new entry is the only one of its thread.
  have fresh := settled.not_waits awake
  have mem : ∀ {other t}, t ∈ after.waitlist other ↔
      t = thread ∧ other = place ∨ t ∈ scene.waitlist other := by
    intro other t
    by_cases h : other = place
    · rw [h, here.mem_iff, List.mem_cons]
      simp
    · rw [others other h]
      simp [h]
  refine ⟨fun other => ?_, fun {other another t} waits waits' => ?_, fun {other t} waits => ?_,
    fun {t} sleeps off => ?_⟩
  · by_cases h : other = place
    · rw [h, here.nodup_iff, List.nodup_cons]
      exact ⟨fresh place, settled.nodup place⟩
    · rw [others other h]
      exact settled.nodup other
  · rcases mem.mp waits with ⟨rfl, rfl⟩ | old
    · rcases mem.mp waits' with ⟨-, rfl⟩ | old'
      · rfl
      · exact absurd old' (fresh another)
    · rcases mem.mp waits' with ⟨rfl, -⟩ | old'
      · exact absurd old (fresh other)
      · exact settled.apart old old'
  · rw [asleep]
    exact (mem.mp waits).imp And.left settled.asleep
  · rcases (asleep t).mp sleeps with rfl | old
    · exact ⟨place, mem.mpr (.inl ⟨rfl, rfl⟩)⟩
    · obtain ⟨other, old⟩ := settled.waits old off
      exact ⟨other, mem.mpr (.inr old)⟩

variable (place) in
/-- Some of those who waited at a place have been woken. -/
theorem rouse {woken : List ThreadId}
    (here : (woken ++ after.waitlist place).Perm (scene.waitlist place))
    (others : ∀ other, other ≠ place → after.waitlist other = scene.waitlist other)
    (asleep : ∀ other, after.Asleep other ↔ scene.Asleep other ∧ other ∉ woken) :
    after.SettledBut strays := by
  obtain ⟨-, distinct, disjoint⟩ := List.nodup_append.mp (here.nodup_iff.mpr (settled.nodup place))
  have woke : ∀ t ∈ woken, t ∈ scene.waitlist place := fun t ht =>
    here.mem_iff.mp (List.mem_append_left _ ht)
  have mem : ∀ {other t}, t ∈ after.waitlist other ↔ t ∈ scene.waitlist other ∧ t ∉ woken := by
    intro other t
    by_cases h : other = place
    · rw [h, ← here.mem_iff, List.mem_append]
      constructor
      · exact fun left => ⟨.inr left, fun ht => disjoint t ht t left rfl⟩
      · rintro ⟨ht | left, off⟩
        · exact absurd ht off
        · exact left
    · -- nobody waits at two places, so no other list has lost anybody
      rw [others other h]
      exact ⟨fun left => ⟨left, fun ht => h (settled.apart left (woke t ht))⟩, And.left⟩
  refine ⟨fun other => ?_, fun waits waits' => ?_, fun {other t} waits => ?_,
    fun {t} sleeps off => ?_⟩
  · by_cases h : other = place
    · rw [h]
      exact distinct
    · rw [others other h]
      exact settled.nodup other
  · exact settled.apart (mem.mp waits).1 (mem.mp waits').1
  · obtain ⟨old, off⟩ := mem.mp waits
    exact (asleep t).mpr ⟨settled.asleep old, off⟩
  · obtain ⟨old, spared⟩ := (asleep t).mp sleeps
    obtain ⟨other, waits⟩ := settled.waits old off
    exact ⟨other, mem.mpr ⟨waits, spared⟩⟩

end SettledBut

end Scene

end Turnstile
