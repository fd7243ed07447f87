/-!
# Blanks

Command-line arguments are separated by characters of Unicode's White_Space property. The
property is a short list of ranges, given here as a table.

* **`Blank.ranges`** is the table: first and last code point of each range, in order.
* **`isBlank`** looks a character up in it. `Char.isWhitespace` of the core library knows the ASCII
  part only.
-/

namespace Turnstile.Text

/-- The ranges of the White_Space property, first and last code point. -/
def Blank.ranges : List (Nat × Nat) :=
  [ (0x0009, 0x000D)
  , (0x0020, 0x0020)
  , (0x0085, 0x0085)
  , (0x00A0, 0x00A0)
  , (0x1680, 0x1680)
  , (0x2000, 0x200A)
  , (0x2028, 0x2029)
  , (0x202F, 0x202F)
  , (0x205F, 0x205F)
  , (0x3000, 0x3000) ]

/-- Whether a character separates arguments. -/
def isBlank (c : Char) : Bool :=
  Blank.ranges.any fun range => range.1 ≤ c.toNat && c.toNat ≤ range.2

end Turnstile.Text
