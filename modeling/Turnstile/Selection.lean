import Turnstile.Thread
import Turnstile.Random
import Turnstile.Policy

/-!
# Choosing among waiters

What a choice looks at is a `Candidate`: the thread, its weight at that moment, and the stamp
of its arrival.

* **`highest`** takes the greatest weight, the earliest arrival among equals, and the first in
  the list among those. A queue whose waiters are all at the least weight still has a highest.
* **`Lottery.holder?`** finds who holds a ticket when tickets are numbered from 1 through the
  list, and **`Lottery.draw`** draws the ticket. A weight of zero or less holds no ticket. Sums
  of tickets saturate, so the tickets beyond the greatest weight do not exist.
-/

namespace Turnstile

/-- One waiter as a choice sees it. -/
structure Candidate where
  thread : ThreadId
  weight : Int
  /-- When the waiter arrived; smaller is earlier. -/
  stamp : Nat
deriving DecidableEq, Repr, Inhabited

namespace Candidate

/-- Whether `challenger` goes before `champion`. -/
def beats (challenger champion : Candidate) : Bool :=
  champion.weight < challenger.weight ||
    (challenger.weight = champion.weight && challenger.stamp < champion.stamp)

/-- The one of two that goes first; the first one, if neither beats the other. -/
def better (champion challenger : Candidate) : Candidate :=
  if challenger.beats champion then challenger else champion

/-- The candidate that goes before all others. -/
def highest : List Candidate → Option Candidate
  | [] => none
  | first :: rest => some (rest.foldl better first)

theorem better_eq_or (champion challenger : Candidate) :
    champion.better challenger = champion ∨ champion.better challenger = challenger := by
  unfold better
  split
  · exact .inr rfl
  · exact .inl rfl

/-- The candidate that goes first is one of the candidates. -/
theorem mem_of_highest {candidates : List Candidate} {winner : Candidate}
    (h : highest candidates = some winner) : winner ∈ candidates := by
  have among : ∀ (rest : List Candidate) (first : Candidate),
      rest.foldl better first ∈ first :: rest := by
    intro rest
    induction rest with
    | nil => intro first; exact List.mem_cons_self
    | cons second rest ih =>
      intro first
      rw [List.foldl_cons]
      rcases List.mem_cons.mp (ih (first.better second)) with champion | below
      · rw [champion]
        rcases first.better_eq_or second with h | h
        · rw [h]
          exact List.mem_cons_self
        · rw [h]
          exact List.mem_cons_of_mem _ List.mem_cons_self
      · exact List.mem_cons_of_mem _ (List.mem_cons_of_mem _ below)
  cases candidates with
  | nil => cases h
  | cons first rest =>
    cases h
    exact among rest first

theorem beats_iff {a b : Candidate} :
    a.beats b = true ↔ b.weight < a.weight ∨ a.weight = b.weight ∧ a.stamp < b.stamp := by
  simp [beats]

theorem not_beats_self (a : Candidate) : ¬ a.beats a = true := by
  rw [beats_iff]
  omega

theorem beats_trans {a b c : Candidate} (h : a.beats b = true) (ho : b.beats c = true) :
    a.beats c = true := by
  rw [beats_iff] at *
  omega

/-- Whoever does not beat one of two does not beat the better of them. -/
theorem not_beats_better {champion other : Candidate} (h : ¬ other.beats champion = true)
    (challenger : Candidate) : ¬ other.beats (champion.better challenger) = true := by
  unfold better
  split
  · rename_i ahead
    exact fun beats => h (beats_trans beats ahead)
  · exact h

theorem not_beats_foldl {champion other : Candidate} (h : ¬ other.beats champion = true)
    (rest : List Candidate) : ¬ other.beats (rest.foldl better champion) = true := by
  induction rest generalizing champion with
  | nil => exact h
  | cons challenger rest ih => exact ih (not_beats_better h challenger)

/-- Nobody beats the candidate that goes first. -/
theorem not_beats_of_highest {candidates : List Candidate} {winner : Candidate}
    (h : highest candidates = some winner) : ∀ other ∈ candidates, ¬ other.beats winner = true := by
  have last : ∀ (rest : List Candidate) (first : Candidate),
      ∀ other ∈ rest, ¬ other.beats (rest.foldl better first) = true := by
    intro rest
    induction rest with
    | nil => simp
    | cons second rest ih =>
      refine fun first => List.forall_mem_cons.mpr ⟨not_beats_foldl ?_ rest, ih _⟩
      unfold better
      split
      · exact not_beats_self second
      · assumption
  cases candidates with
  | nil => cases h
  | cons first rest =>
    cases h
    exact List.forall_mem_cons.mpr ⟨not_beats_foldl (not_beats_self first) rest, last rest first⟩

end Candidate

namespace Lottery

/-- The tickets that a weight stands for. -/
def tickets (weight : Int) : Int := max weight 0

/-- All tickets of a list of weights, at most as many as the greatest weight. -/
def total (weights : List Int) : Int :=
  min (weights.foldl (fun sum weight => Weight.saturatingAdd sum (tickets weight)) 0)
    Weight.greatest

/-- The index of the weight that holds `ticket`, when `before` tickets have been passed. -/
def holderFrom (before : Int) (ticket : Int) : List Int → Option Nat
  | [] => none
  | weight :: rest =>
    if ticket ≤ Weight.saturatingAdd before (tickets weight) then some 0
    else (holderFrom (Weight.saturatingAdd before (tickets weight)) ticket rest).map (· + 1)

/-- The index of the weight that holds `ticket`, tickets being numbered from 1. -/
def holder? (weights : List Int) (ticket : Int) : Option Nat := holderFrom 0 ticket weights

/-- Draw a ticket and say who holds it. Where there is no ticket nothing is drawn. -/
def draw (weights : List Int) (generator : XorShift) :
    Except Violation (Option Nat × XorShift) :=
  if total weights ≤ 0 then .ok (none, generator)
  else
    match XorShift.draw (UInt64.ofNat (total weights).toNat) generator with
    | .ok (ticket, generator) => .ok (holder? weights (Weight.ofWord ticket), generator)
    | .error violation => .error violation

end Lottery

end Turnstile
