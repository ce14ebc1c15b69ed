/-!
Decimal numerals for rounded numbers: the fewest digits that still single out a number, and the
layouts in which the digits are written.
-/

namespace Conform.Decimal

/-- The decimals that read back as one number, counted in units of a power of ten that is kept
elsewhere. The number itself is `mid`; the two ends belong to it when `closed` holds. -/
structure Interval where
  low : Nat
  mid : Nat
  high : Nat
  closed : Bool

/-- Which of two equally near numerals is taken. -/
inductive Tie where
  | up
  | toEven
  deriving DecidableEq, Repr

namespace Interval

def admits (interval : Interval) (candidate : Nat) : Bool :=
  if interval.closed then interval.low ≤ candidate && candidate ≤ interval.high
  else interval.low < candidate && candidate < interval.high

/-- The nearest multiple of `step` that lies in the interval, if there is one. Only the two
multiples around the number have to be looked at. -/
def onGrid? (tie : Tie) (interval : Interval) (step : Nat) : Option Nat :=
  let quotient := interval.mid / step
  let below := quotient * step
  let above := below + step
  let belowGap := interval.mid - below
  let aboveGap := above - interval.mid
  match interval.admits below, interval.admits above with
  | true, true =>
    if belowGap < aboveGap then some below
    else if aboveGap < belowGap then some above
    else match tie with
      | .up => some above
      | .toEven => some (if quotient % 2 = 0 then below else above)
  | true, false => some below
  | false, true => some above
  | false, false => none

/-- Tries ever finer grids, from the multiples of `10 ^ places` on; the number itself lies on
the finest. -/
def coarsest (tie : Tie) (interval : Interval) : Nat → Nat
  | 0 => interval.mid
  | places + 1 => (interval.onGrid? tie (Nat.pow 10 (places + 1))).getD (interval.coarsest tie places)

/-- The decimal of the interval with the fewest significant digits, and of those the nearest. -/
def shortest (tie : Tie) (interval : Interval) : Nat :=
  interval.coarsest tie ((Nat.toDigits 10 interval.mid).length - 1)

end Interval

/-- Significant digits, and how many of them stand before the decimal point. -/
structure Numeral where
  digits : List Char
  point : Int

/-- The numeral of `n * 10 ^ scale`, without zeros at its end. -/
def Numeral.ofScaled (n : Nat) (scale : Int) : Numeral :=
  let digits := Nat.toDigits 10 n
  ⟨(digits.reverse.dropWhile (· == '0')).reverse, digits.length + scale⟩

/-- How a numeral is laid out. -/
structure Style where
  /-- The range of powers of ten of the first digit that is written without an exponent; absent
  when every number is. -/
  positional : Option (Int × Int)
  /-- Whether a whole number ends in a zero fraction. -/
  zeroFraction : Bool
  /-- Whether a positive exponent has a sign. -/
  signedExponent : Bool
  /-- Which of two equally near numerals is taken. -/
  tie : Tie

namespace Style

private def zeros (count : Int) : List Char :=
  List.replicate count.toNat '0'

def writePositional (style : Style) (numeral : Numeral) : List Char :=
  let count : Int := numeral.digits.length
  if numeral.point ≤ 0 then
    '0' :: '.' :: (zeros (-numeral.point) ++ numeral.digits)
  else if count ≤ numeral.point then
    numeral.digits ++ zeros (numeral.point - count)
      ++ (if style.zeroFraction then ['.', '0'] else [])
  else
    numeral.digits.take numeral.point.toNat ++ '.' :: numeral.digits.drop numeral.point.toNat

def writeScientific (style : Style) (numeral : Numeral) : List Char :=
  let exponent := numeral.point - 1
  let sign := if exponent < 0 then ['-'] else if style.signedExponent then ['+'] else []
  let fraction := numeral.digits.drop 1
  numeral.digits.take 1 ++ (if fraction.isEmpty then [] else '.' :: fraction)
    ++ 'e' :: (sign ++ Nat.toDigits 10 exponent.natAbs)

def write (style : Style) (numeral : Numeral) : List Char :=
  match style.positional with
  | none => style.writePositional numeral
  | some (least, greatest) =>
    if least ≤ numeral.point - 1 ∧ numeral.point - 1 ≤ greatest then
      style.writePositional numeral
    else style.writeScientific numeral

/-- Zero is written as the digit `0`. -/
def writeZero (style : Style) : List Char :=
  style.writePositional ⟨['0'], 1⟩

end Style

end Conform.Decimal
