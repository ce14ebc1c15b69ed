import Conform.Binary64
import Conform.Decimal

/-!
The written forms of double precision numbers. All of them use the fewest digits that read back
as the same number and differ only in layout.
-/

namespace Conform.Binary64

open Decimal

/-- A number `m * 2 ^ q` as the middle of its rounding interval, with the power of ten in which
the interval is counted. Both neighbours are half a unit in the last place away, except that the
lower one is a quarter away below a power of two. Writing `2 ^ -k` as `5 ^ k * 10 ^ -k` makes
everything whole. -/
def roundingInterval (significand : Nat) (scale : Int) (narrowBelow : Bool) : Interval × Int :=
  let quarter := scale - 2
  let factor := if 0 ≤ quarter then Nat.pow 2 quarter.toNat else Nat.pow 5 (-quarter).toNat
  let below := if narrowBelow then 1 else 2
  (⟨(4 * significand - below) * factor, 4 * significand * factor,
    (4 * significand + 2) * factor, significand % 2 == 0⟩, min quarter 0)

/-- Whether the next smaller magnitude is only half as far away as the next greater one. -/
def narrowBelow (x : Binary64) : Bool :=
  x.rank % 0x10000000000000 == 0 && 0x20000000000000 ≤ x.rank

/-- The digits of the magnitude of a finite number other than zero. -/
def numeral (tie : Tie) (x : Binary64) : Numeral :=
  let (interval, scale) := roundingInterval x.significand x.scale x.narrowBelow
  Numeral.ofScaled (interval.shortest tie) scale

/-- The text of a number in a style; infinities and what is no number have names of their own. -/
def write (style : Style) (x : Binary64) : String :=
  if x.isNaN then "NaN"
  else
    let magnitude :=
      if !x.isFinite then "inf".toList
      else if x.rank = 0 then style.writeZero
      else style.write (x.numeral style.tie)
    String.ofList (if x.negative then '-' :: magnitude else magnitude)

/-- The style of values and literals: never an exponent, and no fraction on whole numbers. -/
def plainStyle : Style where
  positional := none
  zeroFraction := false
  signedExponent := false
  tie := .up

/-- The style of the structural view: always a fraction or an exponent. -/
def debugStyle : Style where
  positional := some (-4, 15)
  zeroFraction := true
  signedExponent := false
  tie := .up

/-- The style of numbers inside interchange documents. -/
def documentStyle : Style where
  positional := some (-5, 15)
  zeroFraction := true
  signedExponent := true
  tie := .toEven

def toText (x : Binary64) : String :=
  x.write plainStyle

def debugText (x : Binary64) : String :=
  x.write debugStyle

def documentText (x : Binary64) : String :=
  x.write documentStyle

end Conform.Binary64
