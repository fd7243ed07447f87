import Turnstile.Violation

/-!
# Random tickets

The generator is the 64-bit xorshift with shifts 13, 7 and 17. Zero is a fixed point of its step
and every other word lies on one cycle, so a zero seed is replaced by another.

* **`XorShift.next`** gives the next word of the cycle.
* **`XorShift.draw`** gives a number from 1 to a bound. Words at or above the greatest multiple
  of the bound that is a word itself are thrown away (`zone`), so that each number stands for
  equally many words. Zero, which is never given, is among those that stand for 1.
* **Why a draw ends.** A word whose top bit is clear is below every zone, and no 65 words in
  a row have their top bits set: the top bits of 64 words in a row tell all 64 bits of the
  first, and where all are set the next one is clear. A draw therefore tries at most `patience`
  words.
-/

namespace Turnstile

/-- A generator, known by the word it gave last. -/
structure XorShift where
  state : UInt64
deriving DecidableEq, Repr, Inhabited

namespace XorShift

/-- The seed in place of zero, and wherever no seed is given. -/
def defaultSeed : UInt64 := 0x9E3779B97F4A7C15

/-- The greatest word of 64 bits. -/
def greatestWord : UInt64 := 0xFFFFFFFFFFFFFFFF

/-- The generator of a seed. -/
def ofSeed (seed : UInt64) : XorShift := ⟨if seed = 0 then defaultSeed else seed⟩

/-- From one word of the cycle to the next. -/
def step (word : UInt64) : UInt64 :=
  let first := word ^^^ (word <<< 13)
  let second := first ^^^ (first >>> 7)
  second ^^^ (second <<< 17)

/-- The next word, and the generator after it. -/
def next (generator : XorShift) : UInt64 × XorShift :=
  (step generator.state, ⟨step generator.state⟩)

/-- The greatest multiple of `upper` among the words. The words below it stand for the numbers
up to `upper`, each for equally many. -/
def zone (upper : UInt64) : UInt64 := greatestWord - greatestWord % upper

/-- The number from 1 to `upper` that a word of the zone stands for. -/
def share (upper word : UInt64) : UInt64 := word % upper + 1

/-- The first word below `limit`, out of at most as many words as there are `tries`. -/
def firstBelow (limit : UInt64) : (tries : Nat) → XorShift → Option (UInt64 × XorShift)
  | 0, _ => none
  | tries + 1, generator =>
    if generator.next.1 < limit then some generator.next
    else firstBelow limit tries generator.next.2

/-- How many words a draw may try: one more than can have their top bits set in a row. -/
def patience : Nat := 65

/-- A number from 1 to `upper`: the share of the first word within the zone. -/
def draw (upper : UInt64) (generator : XorShift) : Except Violation (UInt64 × XorShift) :=
  if upper = 0 then .error .emptyPool
  else
    match firstBelow (zone upper) patience generator with
    | some (word, generator) => .ok (share upper word, generator)
    | none => .error .unfairDraw

end XorShift

end Turnstile
