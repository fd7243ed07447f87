import Turnstile.Text.Blank

/-!
# Words and numerals

How a line of text is taken apart. Text is a list of characters here.

* **`words`** are the longest runs of characters without a blank.
* **`splitAt?`** cuts a word at the first place where a given mark stands.
* **`numeral?`** reads a natural number written in decimal digits, with at most one plus sign
  in front; leading zeros do not matter.
-/

namespace Turnstile.Text

/-- What stands between blanks, empty pieces included. There is always one piece more than
blanks. -/
def pieces : List Char → List (List Char)
  | [] => [[]]
  | c :: rest =>
    if isBlank c then [] :: pieces rest
    else
      match pieces rest with
      | [] => [[c]]
      | piece :: others => (c :: piece) :: others

/-- The longest runs of characters without a blank. -/
def words (text : List Char) : List (List Char) := (pieces text).filter (· ≠ [])

/-- What stands before the first `mark` and what stands after it. -/
def splitAt? (mark : Char) : List Char → Option (List Char × List Char)
  | [] => none
  | c :: rest =>
    if c = mark then some ([], rest)
    else (splitAt? mark rest).map fun parts => (c :: parts.1, parts.2)

/-- The value of an ASCII decimal digit. -/
def digit? (c : Char) : Option Nat :=
  if '0' ≤ c ∧ c ≤ '9' then some (c.toNat - 48) else none

/-- The value of a run of digits, read after digits of value `high`. -/
def digitsFrom (high : Nat) : List Char → Option Nat
  | [] => some high
  | c :: rest => (digit? c).bind fun d => digitsFrom (high * 10 + d) rest

/-- The value of a run of one or more digits. -/
def digits? (text : List Char) : Option Nat :=
  if text = [] then none else digitsFrom 0 text

/-- The value of a decimal numeral, which may begin with one plus sign. -/
def numeral? : List Char → Option Nat
  | '+' :: rest => digits? rest
  | text => digits? text

end Turnstile.Text
