/-!
Double precision numbers, computed with exactly.

A number is a sign and a rank. The rank numbers the magnitudes in ascending order: zero, the
subnormal numbers, the normal numbers, infinity, and above it the magnitudes that are no number.
Comparison is then comparison of signed ranks, and the rank is the low 63 bits of the
interchange format. Consecutive powers of two are `0x10000000000000` ranks apart.
-/

namespace Conform

structure Binary64 where
  negative : Bool
  rank : Nat
  rank_lt : rank < 0x8000000000000000 := by decide
  deriving DecidableEq

namespace Binary64

def ofBits (bits : UInt64) : Binary64 where
  negative := 0x8000000000000000 ≤ bits.toNat
  rank := bits.toNat % 0x8000000000000000
  rank_lt := Nat.mod_lt _ (by decide)

def toBits (x : Binary64) : UInt64 :=
  UInt64.ofNat ((if x.negative then 0x8000000000000000 else 0) + x.rank)

theorem ofBits_toBits (x : Binary64) : ofBits x.toBits = x := by
  have bound := x.rank_lt
  obtain ⟨negative, rank, rank_lt⟩ := x
  cases negative <;> simp [ofBits, toBits] at * <;> omega

/-- The rank of infinity. -/
def infinityRank : Nat := 0x7ff0000000000000

def zero : Binary64 := ⟨false, 0, by decide⟩

def negativeZero : Binary64 := ⟨true, 0, by decide⟩

def infinity : Binary64 := ⟨false, infinityRank, by decide⟩

def nan : Binary64 := ⟨false, 0x7ff8000000000000, by decide⟩

instance : Inhabited Binary64 := ⟨zero⟩

/-- The number with the other sign. -/
def opposite (x : Binary64) : Binary64 :=
  { x with negative := !x.negative }

def isNaN (x : Binary64) : Bool :=
  infinityRank < x.rank

def isFinite (x : Binary64) : Bool :=
  x.rank < infinityRank

/-- The power of two by which the significand of a finite number is scaled. -/
def scale (x : Binary64) : Int :=
  (max (x.rank / 0x10000000000000) 1 : Nat) - 1075

/-- The significand of a finite number, as a whole number of 53 bits or fewer. -/
def significand (x : Binary64) : Nat :=
  if x.rank < 0x10000000000000 then x.rank else 0x10000000000000 + x.rank % 0x10000000000000

/-- The position of a number on the line; the two zeros share one. -/
def position (x : Binary64) : Int :=
  if x.negative then -x.rank else x.rank

/-- Numeric equality: the zeros are equal, and what is no number equals nothing. -/
def equal (x y : Binary64) : Bool :=
  !x.isNaN && x.rank == y.rank && (x.negative == y.negative || x.rank == 0)

/-- Numbers are equal when they stand at one position of the line. -/
theorem equal_iff (x y : Binary64) :
    x.equal y = true ↔ x.isNaN = false ∧ y.isNaN = false ∧ x.position = y.position := by
  obtain ⟨signX, rankX, _⟩ := x
  obtain ⟨signY, rankY, _⟩ := y
  cases signX <;> cases signY <;> simp [equal, isNaN, position] <;> omega

def less (x y : Binary64) : Bool :=
  !x.isNaN && !y.isNaN && decide (x.position < y.position)

/-- The leading 53 bits of a positive whole number, rounded to the nearest, a half to the even
one. -/
def leadingBits (n : Nat) : Nat :=
  if n.log2 ≤ 52 then n <<< (52 - n.log2)
  else
    let unit := 1 <<< (n.log2 - 52)
    let quotient := n / unit
    let remainder := n % unit
    if unit < 2 * remainder || (unit == 2 * remainder && quotient % 2 == 1) then quotient + 1
    else quotient

/-- The rank of a whole number. When rounding carries into a 54th bit, the sum moves on to the
next power of two, and from the last one to infinity. -/
def rankOfNat (n : Nat) : Nat :=
  if n = 0 then 0 else min infinityRank ((n.log2 + 1022) * 0x10000000000000 + leadingBits n)

theorem rankOfNat_le (n : Nat) : rankOfNat n ≤ infinityRank := by
  unfold rankOfNat
  split
  · exact Nat.zero_le _
  · exact Nat.min_le_left _ _

/-- The double nearest to a whole number. -/
def ofInt (n : Int) : Binary64 where
  negative := n < 0
  rank := rankOfNat n.natAbs
  rank_lt := Nat.lt_of_le_of_lt (rankOfNat_le _) (by decide)

def ofNat (n : Nat) : Binary64 :=
  ofInt n

/-- The magnitude of a finite number, if it is whole. -/
def wholeMagnitude? (x : Binary64) : Option Nat :=
  if 0 ≤ x.scale then some (x.significand <<< x.scale.toNat)
  else
    let unit := 1 <<< (-x.scale).toNat
    if x.significand % unit = 0 then some (x.significand / unit) else none

/-- The greatest magnitude up to which neighbouring whole numbers are told apart. -/
def maxSafeInteger : Nat := 0x1fffffffffffff

/-- The whole number that a double stands for beyond doubt. Negative zero is left out, because
no whole number keeps its sign. -/
def toInt? (x : Binary64) : Option Int :=
  if x.isFinite && x != negativeZero then
    match x.wholeMagnitude? with
    | some n => if n ≤ maxSafeInteger then some (if x.negative then -n else n) else none
    | none => none
  else none

theorem toInt?_natAbs_le {x : Binary64} {n : Int} (whole : x.toInt? = some n) :
    n.natAbs ≤ maxSafeInteger := by
  unfold toInt? at whole
  split at whole
  · split at whole
    · split at whole
      · rename_i magnitude _ bound
        cases whole
        split <;> simpa using bound
      · cases whole
    · cases whole
  · cases whole

end Binary64

end Conform
