/-!
# Weights and policies

A weight says how strongly a thread presses for a resource. What the number means is the
policy's business:

* under **priority** it is a level between 0 and 7, and the highest waiter goes next;
* under **lottery** it is a number of tickets, at least one, and waiters go in proportion.

Weights are signed words of 32 bits. They are kept as integers here, and the one operation
that could leave the range, addition, saturates (`Weight.saturatingAdd`).
-/

namespace Turnstile

namespace Weight

/-- The least signed word of 32 bits. -/
def least : Int := -2147483648

/-- The greatest signed word of 32 bits. -/
def greatest : Int := 2147483647

/-- The sum, held at the nearer end of the range where it would leave it. -/
def saturatingAdd (a b : Int) : Int := max least (min greatest (a + b))

/-- The low 32 bits of a word, read as a signed number. -/
def ofWord (word : UInt64) : Int := Int.bmod word.toNat 4294967296

end Weight

/-- How a queue chooses its next owner. -/
inductive Policy
  /-- The greatest weight goes first, the longest waiter among equals. -/
  | priority
  /-- A ticket is drawn among those of all waiters. -/
  | lottery
deriving DecidableEq, Repr, Inhabited

namespace Policy

/-- The least legal base weight. -/
def minimum : Policy → Int
  | priority => 0
  | lottery => 1

/-- The greatest legal base weight. -/
def maximum : Policy → Int
  | priority => 7
  | lottery => Weight.greatest

/-- The base weight of a thread that was never given one. -/
def defaultWeight : Policy → Int
  | priority => 1
  | lottery => 1

/-- Whether `weight` is a legal base weight. -/
def contains (policy : Policy) (weight : Int) : Bool :=
  policy.minimum ≤ weight && weight ≤ policy.maximum

/-- The legal base weight nearest to `weight`. -/
def clamp (policy : Policy) (weight : Int) : Int :=
  max policy.minimum (min policy.maximum weight)

/-- Add one waiter's weight to what an owner has so far: a level is lent, tickets are
pooled. -/
def donate (policy : Policy) (total donated : Int) : Int :=
  match policy with
  | priority => max total donated
  | lottery => min (Weight.saturatingAdd total donated) policy.maximum

/-- The word for the policy on the command line and in answers. -/
def name : Policy → String
  | priority => "priority"
  | lottery => "lottery"

/-- The policy that a word names; case and spacing matter. -/
def ofName? (word : String) : Option Policy :=
  if word = "priority" then some priority
  else if word = "lottery" then some lottery
  else none

end Policy

/-- A weight refused because its policy does not allow it as a base weight. -/
structure OutOfRange where
  requested : Int
  minimum : Int
  maximum : Int
deriving DecidableEq, Repr, Inhabited

/-- The wording of a refusal. -/
def OutOfRange.message (refusal : OutOfRange) : String :=
  "priority " ++ toString refusal.requested ++ " is outside [" ++ toString refusal.minimum
    ++ ", " ++ toString refusal.maximum ++ "]"

namespace Policy

/-- Refuse a weight that is no legal base weight. -/
def check (policy : Policy) (weight : Int) : Except OutOfRange Unit :=
  if policy.contains weight then .ok ()
  else .error { requested := weight, minimum := policy.minimum, maximum := policy.maximum }

/-! ## Laws -/

theorem minimum_le_maximum (policy : Policy) : policy.minimum ≤ policy.maximum := by
  cases policy <;> decide

theorem contains_iff {policy : Policy} {weight : Int} :
    policy.contains weight = true ↔ policy.minimum ≤ weight ∧ weight ≤ policy.maximum := by
  simp [contains]

theorem contains_clamp (policy : Policy) (weight : Int) :
    policy.contains (policy.clamp weight) = true := by
  have := policy.minimum_le_maximum
  rw [contains_iff]
  unfold clamp
  omega

theorem contains_defaultWeight (policy : Policy) :
    policy.contains policy.defaultWeight = true := by
  cases policy <;> decide

theorem ofName?_name (policy : Policy) : ofName? policy.name = some policy := by
  cases policy <;> rfl

theorem ofName?_eq_some_iff {word : String} {policy : Policy} :
    ofName? word = some policy ↔ word = policy.name := by
  constructor
  · intro h
    unfold ofName? at h
    split at h
    · cases h
      assumption
    · split at h
      · cases h
        assumption
      · cases h
  · rintro rfl
    exact ofName?_name policy

end Policy

end Turnstile
