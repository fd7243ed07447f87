import Turnstile.Proofs.Simulation.Housed

/-!
# Blocked threads wait, each in one place

In a run whose scripts keep to locks, conditions, join points, the alarm, weights and their own
ends, the blocked threads are exactly those that stand on a queue, in the line of a condition or
with the alarm, and each stands there once (`blocked_iff_waits`). So nobody is readied who is not
asleep, and nobody who has slept for a lock is woken without it.

Handles have 32 bits for the slot of a queue. Were there 2^32 queues at once, the next would share
its handle with the first (`QueueTable.insert_beyond`), and a lock could change hands behind its
owner's back; what is said of locks supposes that there are fewer.
-/

namespace Turnstile.Simulation

/-- Of a run in which the driver and the threads keep to orderly requests, after any number of
steps: the blocked threads are those that wait somewhere, and each of them waits in one place, once;
no violation says that a thread was readied that was not asleep; and if there have always been fewer
queues than handles, none says that a thread was woken without the lock that it slept for. -/
theorem blocked_iff_waits (config : Config) (idleLimit : Nat) (script : List Operation)
    (kept : keepAll Request.orderly true script = true) (count : Nat) :
    let run := fun m => steps m (start config idleLimit script)
    let waitlist := (run count).kernel.scene.waitlist
    ((run count).untroubled = true →
      (∀ thread, (run count).machine.status? thread = some .blocked ↔
        ∃ place, thread ∈ waitlist place) ∧
      ∀ thread place, thread ∈ waitlist place → (waitlist place).count thread = 1 ∧
        ∀ other, other ≠ place → thread ∉ waitlist other) ∧
    (∀ thread, ¬ (run count).Raised (.readiedUnblocked thread)) ∧
    ((∀ m < count, (run m).kernel.tables.queues.size < 4294967296) →
      ∀ thread holder, ¬ (run count).Raised (.wokenWithoutLock thread holder)) := by
  intro run waitlist
  have begins := orderly_start config idleLimit kept
  have legal : ∀ driver call, Request.orderly driver call = true →
      call.orderly driver = true := fun _ _ h => h
  have orderly : (run count).Orderly Request.orderly ∨ Spoilt
      (fun violation => ∀ thread, violation ≠ .readiedUnblocked thread) (run count) := by
    refine orderly_or_spoilt legal ?_ (fun _ _ _ => nofun) begins count
    intro violation usual thread same
    rw [same] at usual
    cases usual
  refine ⟨fun calm => ?_, fun thread raised => ?_, fun room thread holder raised => ?_⟩
  · obtain settled := (orderly.resolve_right fun spoilt => spoilt.troubled calm).settled
    refine ⟨settled.asleep_iff, fun thread place waits => ⟨?_, fun other ne waits' => ?_⟩⟩
    · exact List.count_eq_one_of_mem (settled.nodup place) waits
    · exact ne (settled.apart waits' waits)
  · rcases orderly with orderly | spoilt
    · exact orderly.calm _ raised
    · exact spoilt.allows _ raised thread rfl
  · have housed := housed_or_spoilt legal (fun _ usual => usual) begins
      (housed_start config idleLimit script) count room
    rcases housed with ⟨orderly, -⟩ | spoilt
    · exact orderly.calm _ raised
    · cases spoilt.allows _ raised

/-- A script by which three threads come to wait in the three kinds of places: the first in the line
of a condition, the second with the alarm, and the third for the lock that the second holds. -/
def crowd : List Operation :=
  [.request .lock, .request (.condition 0),
    .spawn [.request (.lockAcquire 0), .request (.conditionWait 0), .request (.lockRelease 0)],
    .spawn [.request (.lockAcquire 0), .request (.alarmWait 5), .request (.lockRelease 0)],
    .spawn [.request (.lockAcquire 0), .request (.lockRelease 0)],
    .run]

/-- After 14 steps all three sleep, each of them in its own place and nowhere else. -/
theorem blocked_iff_waits_crowd :
    let system := steps 14 (start .default 10 crowd)
    keepAll Request.orderly true crowd = true ∧ system.untroubled = true ∧
      system.statuses = [(⟨1⟩, .blocked), (⟨2⟩, .blocked), (⟨3⟩, .blocked)] ∧
      (system.kernel.scene.waitlist (.condition 0) = [⟨1⟩] ∧
        ∀ other, other ≠ .condition 0 → ⟨1⟩ ∉ system.kernel.scene.waitlist other) ∧
      (system.kernel.scene.waitlist .alarm = [⟨2⟩] ∧
        ∀ other, other ≠ .alarm → ⟨2⟩ ∉ system.kernel.scene.waitlist other) ∧
      (∃ place, ⟨3⟩ ∈ system.kernel.scene.waitlist place) ∧
      (∀ thread, ¬ system.Raised (.readiedUnblocked thread)) ∧
      ∀ thread holder, ¬ system.Raised (.wokenWithoutLock thread holder) := by
  intro system
  have kept : keepAll Request.orderly true crowd = true := by decide +kernel
  have calm : system.untroubled = true := by decide +kernel
  obtain ⟨settled, ready, woken⟩ := blocked_iff_waits .default 10 crowd kept 14
  obtain ⟨asleep, once⟩ := settled calm
  have first : system.kernel.scene.waitlist (.condition 0) = [⟨1⟩] := by decide +kernel
  have second : system.kernel.scene.waitlist .alarm = [⟨2⟩] := by decide +kernel
  exact ⟨kept, calm, by decide +kernel,
    ⟨first, (once _ _ (first ▸ List.mem_singleton_self _)).2⟩,
    ⟨second, (once _ _ (second ▸ List.mem_singleton_self _)).2⟩,
    (asleep ⟨3⟩).mp (by decide +kernel), ready, woken (by decide +kernel)⟩

end Turnstile.Simulation
