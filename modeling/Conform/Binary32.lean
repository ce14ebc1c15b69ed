import Conform.Binary64.Text

/-!
Single precision numbers, which only occur at the boundary: they are widened, or written with the
digits that their own precision needs.
-/

namespace Conform

/-- A sign and the rank of a magnitude, as for double precision. -/
structure Binary32 where
  negative : Bool
  rank : Nat
  rank_lt : rank < 0x80000000
  deriving DecidableEq

namespace Binary32

def ofBits (bits : UInt32) : Binary32 where
  negative := 0x80000000 ≤ bits.toNat
  rank := bits.toNat % 0x80000000
  rank_lt := Nat.mod_lt _ (by decide)

def infinityRank : Nat := 0x7f800000

def isFinite (x : Binary32) : Bool :=
  x.rank < infinityRank

/-- The rank of the same magnitude in double precision. A subnormal number is a whole number
whose exponent is lowered; the others keep their fraction and have their exponent moved to the
other bias. -/
def widenedRank (rank : Nat) : Nat :=
  if rank < 0x800000 then Binary64.rankOfNat rank - 149 * 0x10000000000000
  else if rank < infinityRank then rank * 0x20000000 + 896 * 0x10000000000000
  else rank * 0x20000000 + 1792 * 0x10000000000000

/-- Every single precision number is a double precision number. -/
def widen (x : Binary32) : Binary64 where
  negative := x.negative
  rank := widenedRank x.rank
  rank_lt := by
    have bound := x.rank_lt
    unfold widenedRank infinityRank
    split
    · have := Binary64.rankOfNat_le x.rank
      unfold Binary64.infinityRank at this
      omega
    · split <;> omega

def scale (x : Binary32) : Int :=
  (max (x.rank / 0x800000) 1 : Nat) - 150

def significand (x : Binary32) : Nat :=
  if x.rank < 0x800000 then x.rank else 0x800000 + x.rank % 0x800000

def narrowBelow (x : Binary32) : Bool :=
  x.rank % 0x800000 == 0 && 0x1000000 ≤ x.rank

/-- The style of numbers inside interchange documents. Single precision has a range of its own
that is written without an exponent. -/
def documentStyle : Decimal.Style :=
  { Binary64.documentStyle with positional := some (-6, 12) }

/-- The text of a finite number inside interchange documents. -/
def documentText (x : Binary32) : String :=
  let style := documentStyle
  let (interval, scale) := Binary64.roundingInterval x.significand x.scale x.narrowBelow
  let magnitude :=
    if x.rank = 0 then style.writeZero
    else style.write (.ofScaled (interval.shortest style.tie) scale)
  String.ofList (if x.negative then '-' :: magnitude else magnitude)

end Binary32

end Conform
