/-!
Whole numbers written in decimal digits.
-/

namespace Conform.Text

/-- The number that a decimal numeral writes; absent when there are no digits or other
characters. -/
def readDecimal? (digits : List Char) : Option Nat :=
  if digits.isEmpty then none
  else digits.foldl
    (fun number c => do
      let n ← number
      if c.isDigit then some (10 * n + (c.toNat - '0'.toNat)) else none)
    (some 0)

/-- The numeral of a count, which has to fit into 64 bits. Zeros may stand in front. -/
def readCount? (digits : List Char) : Option Nat :=
  (readDecimal? digits).filter (· ≤ 0xffffffffffffffff)

end Conform.Text
