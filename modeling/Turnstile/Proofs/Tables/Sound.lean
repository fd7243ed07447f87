import Turnstile.Proofs.Ledger.Coherent
import Turnstile.Proofs.Tables.Weighing

/-!
# Sound tables

Tables are **sound** (`Tables.Sound`) if their ledger is consistent, nobody lends to itself, and
the weights kept are right. Each operation on sound tables leaves sound tables when it succeeds,
and the modules on the operations say for each of them when it does.

What an operation does to the ledger is a move, with the weights of some threads cleared;
`Sound.of_clear` puts together what is known of the two.
-/

namespace Turnstile.Tables

open Ledger

/-- Everything that the scheduler relies on. -/
structure Sound (tables : Tables) : Prop where
  consistent : tables.ledger.Consistent
  acyclic : tables.ledger.Acyclic
  coherent : tables.ledger.Coherent

variable {tables after : Tables}

theorem Sound.linked (sound : tables.Sound) : tables.ledger.Linked :=
  sound.consistent.toLinked

/-- In sound tables no walk comes back. -/
theorem Sound.no_return (sound : tables.Sound) (thread : ThreadId) :
    ¬ Relation.TransGen tables.ledger.Hop thread thread := by
  rw [sound.linked.hop_eq]
  exact sound.acyclic thread

/-- A move leaves sound tables if it clears enough. -/
theorem Sound.of_clear {moved : Ledger} {inside : Set ThreadId}
    (h : after.ledger = moved.clear inside) (consistent : moved.Consistent)
    (acyclic : moved.Acyclic) (coherent : (moved.clear inside).Coherent) : after.Sound where
  consistent := by
    rw [h]
    exact consistent.of_bare (bare_clear _ _)
  acyclic := by
    rw [h]
    exact acyclic.congr (clear_queue? _ _)
  coherent := by
    rw [h]
    exact coherent

/-- Soundness is about the ledger, and of weights kept only about their being right. -/
theorem Sound.of_bare (sound : tables.Sound) (bare : after.ledger.bare = tables.ledger.bare)
    (coherent : after.ledger.Coherent) : after.Sound where
  consistent := sound.consistent.of_bare bare
  acyclic := sound.acyclic.congr (queue?_of_bare bare)
  coherent := coherent

/-- Tables that have dealt with nobody are sound. -/
theorem sound_fresh (policy : Policy) (seed : UInt64) : (fresh policy seed).Sound where
  consistent :=
    { owned_iff := fun thread id => by
        show id ∈ [] ↔ none = some thread
        simp
      waitingOn_iff := fun thread id => by
        show none = some id ↔ thread ∈ []
        simp
      owned_nodup := fun _ => List.nodup_nil
      waiters_nodup := fun _ => List.nodup_nil
      owner_not_waiting := fun _ _ owns => by cases owns
      increasing := fun _ => List.Pairwise.nil
      le_stamp := fun _ _ h => by cases h
      base_legal := fun _ => policy.contains_defaultWeight
      policy_eq := fun h => by cases h }
  acyclic thread ring := by
    obtain ⟨other, -, id, queue, live, -⟩ := Relation.TransGen.tail'_iff.mp ring
    cases live
  coherent thread weight kept := by cases kept

end Turnstile.Tables
