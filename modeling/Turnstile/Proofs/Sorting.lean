import Mathlib.Data.List.Basic

/-!
# Stable sorting

Sorting a list by a key leaves those that tie in the order in which they stood
(`mergeSort_keeps_ties`), and nothing else that holds the same elements in the order of the key does
so as well (`eq_mergeSort_of_keeps_ties`).
-/

namespace Turnstile

section Stable

variable {α : Type} {le : α → α → Bool} {before : α → α → Prop} {elements sorted : List α}
  (trans : ∀ a b c, le a b = true → le b c = true → le a c = true)
  (total : ∀ a b, (le a b || le b a) = true)
include trans total

theorem mergeSort_keeps_ties (order : elements.Pairwise before) :
    (elements.mergeSort le).Pairwise fun a b => le b a = true → before a b := by
  induction elements with
  | nil => simp
  | cons first rest ih =>
    obtain ⟨earliest, order⟩ := List.pairwise_cons.mp order
    obtain ⟨above, below, sorted, without, less⟩ := List.mergeSort_cons trans total first rest
    have kept := ih order
    rw [without, List.pairwise_append] at kept
    obtain ⟨keptAbove, keptBelow, across⟩ := kept
    have apart : ∀ other ∈ above, le first other = true → before other first := by
      intro other here ties
      have := less other here
      rw [ties] at this
      cases this
    have behind : ∀ other ∈ below, before first other := by
      intro other here
      have here : other ∈ rest.mergeSort le := without ▸ List.mem_append_right _ here
      exact earliest other (List.mem_mergeSort.mp here)
    -- the first is put behind those that are less, none of which ties with it
    rw [sorted, List.pairwise_append, List.pairwise_cons]
    exact ⟨keptAbove, ⟨fun other here _ => behind other here, keptBelow⟩, fun other here =>
      List.forall_mem_cons.mpr ⟨apart other here, across other here⟩⟩

theorem eq_mergeSort_of_keeps_ties (order : elements.Pairwise before)
    (asymm : ∀ a b, before a b → ¬ before b a) (same : sorted.Perm elements)
    (keeps : sorted.Pairwise fun a b => le a b = true ∧ (le b a = true → before a b)) :
    sorted = elements.mergeSort le := by
  have stable : (elements.mergeSort le).Pairwise
      fun a b => le a b = true ∧ (le b a = true → before a b) :=
    (List.pairwise_mergeSort trans total elements).and (mergeSort_keeps_ties trans total order)
  refine List.Perm.eq_of_pairwise (fun a b _ _ h ho => ?_) keeps stable
    (same.trans (List.mergeSort_perm elements le).symm)
  exact absurd (ho.2 h.1) (asymm a b (h.2 ho.1))

end Stable

end Turnstile
