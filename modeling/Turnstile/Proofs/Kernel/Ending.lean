import Turnstile.Proofs.Kernel.Brackets
import Turnstile.Proofs.Kernel.Exiting
import Turnstile.Proofs.Kernel.Rechecking
import Turnstile.Proofs.Tables.Reachable

/-!
# Exits that have gone through

What a call has done to the tables if it has come to its end without a violation, on any lawful
machine. A computation is taken apart where its parts were put together, from the tables operations
up.

* **`forget_of_finish`**: a thread that finishes has dropped its record, and nothing else.
* **`parts_of_joinExit`**: a thread that exits through a join point is its target, and has handed
  the queue on, closed it and dropped its record, in this order.
-/

namespace Turnstile

open Kernel LawfulMachine

section

variable {σ α : Type} [LawfulMachine σ] {kernel after : Kernel σ} {id : QueueId}
  {winner : Option ThreadId}

theorem Kernel.body_of_bracket {body : KernelM σ α} {a : α}
    (done : bracket body kernel = .ok a after) :
    ∃ last, body kernel.masked = .ok a last ∧ after.tables = last.tables := by
  unfold bracket at done
  dsimp only at done
  split at done
  · rename_i last ended
    cases done
    exact ⟨last, ended, rfl⟩
  · cases done

theorem Kernel.body_of_bracketCall {body : KernelM σ Progress} {progress : Progress}
    (done : bracketCall body kernel = .ok progress after) :
    ∃ begun last, body kernel.masked = .ok begun last ∧ after.tables = last.tables ∧
      (begun = .finished → progress = .finished) := by
  unfold bracketCall at done
  dsimp only at done
  split at done
  · rename_i ended
    cases done
    exact ⟨_, _, ended, rfl, fun same => by cases same⟩
  · rename_i ended
    cases done
    exact ⟨_, _, ended, rfl, fun same => by cases same⟩
  · rename_i ended
    cases done
    exact ⟨_, _, ended, rfl, fun _ => rfl⟩
  · cases done

theorem Kernel.eq_of_requireMasked {operation : String}
    (done : requireMasked operation kernel = .ok () after) : kernel = after := by
  unfold requireMasked at done
  split at done
  · cases done
  · cases done
    rfl

theorem Kernel.change_of_updateTables {operation : String}
    {f : Tables → Except Violation (α × Tables)} {a : α}
    (done : updateTables operation f kernel = .ok a after) :
    f kernel.tables = .ok (a, after.tables) := by
  obtain ⟨_, mid, required, done⟩ := Kernel.ok_of_bind done
  obtain rfl := eq_of_requireMasked required
  split at done
  · rename_i changed
    cases done
    exact changed
  · cases done

theorem handOver_of_nextThread (done : Scheduler.nextThread id kernel = .ok winner after) :
    kernel.tables.handOver id = .ok (winner, after.tables) := by
  obtain ⟨last, ended, same⟩ := body_of_bracket done
  rw [same]
  exact change_of_updateTables ended

theorem closeQueue_of_closeQueue (done : Scheduler.closeQueue id kernel = .ok () after) :
    kernel.tables.closeQueue id = .ok after.tables := by
  obtain ⟨last, ended, same⟩ := body_of_bracket done
  rw [same]
  obtain ⟨closed, closes, result⟩ := Tables.ok_of_map (change_of_updateTables ended)
  cases result
  exact closes

theorem tables_of_wake {thread : ThreadId} (done : wake thread kernel = .ok () after) :
    after.tables = kernel.tables := by
  obtain ⟨_, mid, required, done⟩ := Kernel.ok_of_bind done
  obtain rfl := eq_of_requireMasked required
  unfold machineReady at done
  split at done
  · cases done
    rfl
  · cases done

omit [LawfulMachine σ] in
theorem made_of_lookup {index : Nat} {point : Join}
    (done : Join.lookup index kernel = .ok point after) :
    kernel.joins[index]? = some point ∧ kernel = after := by
  rw [Join.lookup_eq] at done
  cases there : kernel.joins[index]? with
  | none =>
    rw [there] at done
    cases done
  | some made =>
    rw [there] at done
    cases done
    exact ⟨rfl, rfl⟩

/-- A computation that has come to its end and has left all flags alone. -/
theorem Tame.keeps_ok {masked : Bool} {computation : KernelM σ α} {a : α}
    (tame : Tame masked computation) (proper : Proper kernel.machine)
    (off : masked = true → Machine.interrupts kernel.machine = false)
    (done : computation kernel = .ok a after) : SameFlags kernel.machine after.machine := by
  have same := (tame.keeps proper off).1
  rwa [done] at same

/-- A thread that finishes has dropped its record. -/
theorem forget_of_finish (proper : Proper kernel.machine) {progress : Progress}
    (done : Scheduler.finish kernel = .ok progress after) : progress = .finished ∧
      kernel.tables.forget (Machine.current kernel.machine) = .ok after.tables := by
  obtain ⟨begun, last, body, tables, ends⟩ := body_of_bracketCall done
  obtain ⟨thread, k1, here, body⟩ := Kernel.ok_of_bind body
  cases here
  obtain ⟨_, k2, changed, body⟩ := Kernel.ok_of_bind body
  obtain ⟨_, k3, required, body⟩ := Kernel.ok_of_bind body
  cases body
  obtain rfl := eq_of_requireMasked required
  obtain ⟨gone, forgets, result⟩ := Tables.ok_of_map (change_of_updateTables changed)
  cases result
  have caller : Machine.current kernel.masked.machine = Machine.current kernel.machine :=
    current_setInterrupts proper false
  rw [caller] at forgets
  exact ⟨ends rfl, tables ▸ forgets⟩

/-- A thread that closes a queue and finishes. -/
theorem parts_of_closeAndFinish (proper : Proper kernel.machine) {progress : Progress}
    (done : (do Scheduler.closeQueue id; Scheduler.finish : KernelM σ Progress) kernel =
      .ok progress after) : progress = .finished ∧ ∃ closed,
      kernel.tables.closeQueue id = .ok closed ∧
      closed.forget (Machine.current kernel.machine) = .ok after.tables := by
  obtain ⟨_, next, closing, finishing⟩ := Kernel.ok_of_bind done
  have tame : Tame false (Scheduler.closeQueue (σ := σ) id) := closeQueue_tame id
  have flags := tame.keeps_ok proper (by simp) closing
  obtain ⟨ended, forgets⟩ := forget_of_finish flags.proper finishing
  rw [flags.caller] at forgets
  exact ⟨ended, next.tables, closeQueue_of_closeQueue closing, forgets⟩

/-- A thread that exits through a join point is its target. It hands the queue on, closes it and
finishes. -/
theorem parts_of_joinExit (proper : Proper kernel.machine) {index : Nat} {progress : Progress}
    (done : Join.exit index kernel = .ok progress after) :
    progress = .finished ∧ ∃ point winner handed closed, kernel.joins[index]? = some point ∧
      Machine.current kernel.machine = point.target ∧
      kernel.tables.handOver point.queue = .ok (winner, handed) ∧
      handed.closeQueue point.queue = .ok closed ∧
      closed.forget point.target = .ok after.tables := by
  obtain ⟨point, k1, found, rest⟩ := Kernel.ok_of_bind done
  obtain ⟨made, rfl⟩ := made_of_lookup found
  obtain ⟨thread, k2, here, rest⟩ := Kernel.ok_of_bind rest
  cases here
  by_cases target : Machine.current kernel.machine = point.target
  · rw [if_pos target] at rest
    obtain ⟨begun, last, body, tables, ends⟩ := body_of_bracketCall rest
    rw [tables]
    obtain ⟨_, mid, amended, body⟩ := Kernel.ok_of_bind body
    obtain ⟨proper', off, caller, start⟩ : Proper mid.machine ∧
        Machine.interrupts mid.machine = false ∧ Machine.current mid.machine = point.target ∧
        mid.tables = kernel.tables := by
      cases amended
      exact ⟨setInterrupts_proper proper false, interrupts_masked proper,
        (current_setInterrupts proper false).trans target, rfl⟩
    obtain ⟨winner, next, hands, body⟩ := Kernel.ok_of_bind body
    have tame : Tame true (Scheduler.nextThread (σ := σ) point.queue) := nextThread_tame point.queue
    have flags := tame.keeps_ok proper' (fun _ => off) hands
    -- whether or not somebody is woken, the tables and the caller stay as they are
    obtain ⟨woken, ready, same, body⟩ : ∃ woken : Kernel σ, SameFlags next.machine woken.machine ∧
        woken.tables = next.tables ∧
        (do Scheduler.closeQueue point.queue; Scheduler.finish : KernelM σ Progress) woken =
          .ok begun last := by
      cases winner with
      | none => exact ⟨next, .refl flags.proper, rfl, body⟩
      | some joiner =>
        obtain ⟨_, woken, wakes, body⟩ := Kernel.ok_of_bind body
        have off' := (flags.interrupts_eq proper').trans off
        exact ⟨woken, (Tame.wake joiner).keeps_ok flags.proper (fun _ => off') wakes,
          tables_of_wake wakes, body⟩
    obtain ⟨ended, closed, closes, forgets⟩ := parts_of_closeAndFinish ready.proper body
    rw [same] at closes
    rw [ready.caller, flags.caller, caller] at forgets
    exact ⟨ends ended, point, winner, next.tables, closed, made, target,
      start ▸ handOver_of_nextThread hands, closes, forgets⟩
  · rw [if_neg target] at rest
    cases rest

end

end Turnstile
