import Conform.Binary64
import Mathlib.Algebra.Order.Field.Basic
import Mathlib.Algebra.Order.Field.Rat
import Mathlib.Order.Monotone.Basic
import Mathlib.Tactic.Linarith
import Mathlib.Tactic.NormNum
import Mathlib.Tactic.Ring

/-!
Magnitudes of double precision as rational numbers, and which of them is nearest to a given one.
Ranks are one unit in the last place apart, so half of that on both sides is where a rank is the
nearest.
-/

namespace Conform.Binary64

variable {rank other : Nat} {q r : ℚ}

/-- The distance from a rank to the next one. -/
def gap (rank : Nat) : ℚ :=
  2 ^ ((max (rank / 0x10000000000000) 1 : Nat) - 1075 : Int)

/-- The number at a rank below infinity. -/
def magnitude (rank : Nat) : ℚ :=
  (if rank < 0x10000000000000 then rank else 0x10000000000000 + rank % 0x10000000000000 : Nat) *
    gap rank

theorem magnitude_rank (x : Binary64) : magnitude x.rank = x.significand * 2 ^ x.scale :=
  rfl

theorem gap_pos (rank : Nat) : 0 < gap rank :=
  zpow_pos (by norm_num) _

/-- Up to the second power of two that is normal, ranks count the least magnitude. -/
theorem magnitude_of_small (small : rank < 0x20000000000000) :
    magnitude rank = rank * 2 ^ (-1074 : Int) := by
  have binade : max (rank / 0x10000000000000) 1 = 1 := by omega
  have significand : (if rank < 0x10000000000000 then rank
      else 0x10000000000000 + rank % 0x10000000000000) = rank := by
    split <;> omega
  rw [magnitude, gap, binade, significand]
  rfl

theorem magnitude_zero : magnitude 0 = 0 := by
  rw [magnitude_of_small (by decide), Nat.cast_zero, zero_mul]

section

variable {exponent significand : Nat}

theorem gap_of_significand (low : 0x10000000000000 ≤ significand)
    (high : significand < 0x20000000000000) :
    gap (exponent * 0x10000000000000 + significand) = 2 ^ (exponent - 1074 : Int) := by
  have binade : (exponent * 0x10000000000000 + significand) / 0x10000000000000 = exponent + 1 := by
    omega
  rw [gap, binade, max_eq_left (by omega)]
  congr 1
  omega

/-- A carry into one more bit leads to the next power of two. -/
theorem magnitude_of_significand (low : 0x10000000000000 ≤ significand)
    (high : significand ≤ 0x20000000000000) :
    magnitude (exponent * 0x10000000000000 + significand) =
      significand * 2 ^ (exponent - 1074 : Int) := by
  rw [magnitude, if_neg (by omega)]
  rcases Nat.lt_or_eq_of_le high with high | rfl
  · rw [gap_of_significand low high]
    congr 2
    omega
  · have carried : exponent * 0x10000000000000 + 0x20000000000000 =
        (exponent + 1) * 0x10000000000000 + 0x10000000000000 := by omega
    have fraction : ((exponent + 1) * 0x10000000000000 + 0x10000000000000) % 0x10000000000000 = 0 :=
      by omega
    have next : ((exponent + 1 : Nat) - 1074 : Int) = exponent - 1074 + 1 := by omega
    have doubled : ((0x10000000000000 + 0 : Nat) : ℚ) * 2 = (0x20000000000000 : Nat) := by norm_num
    rw [carried, fraction, gap_of_significand (by decide) (by decide), next,
      zpow_add_one₀ (by norm_num), mul_comm ((2 : ℚ) ^ _), ← mul_assoc, doubled]

end

theorem exists_significand (normal : 0x10000000000000 ≤ rank) :
    ∃ exponent significand, rank = exponent * 0x10000000000000 + significand ∧
      0x10000000000000 ≤ significand ∧ significand < 0x20000000000000 :=
  ⟨rank / 0x10000000000000 - 1, 0x10000000000000 + rank % 0x10000000000000, by omega, by omega,
    by omega⟩

theorem magnitude_succ (rank : Nat) : magnitude (rank + 1) = magnitude rank + gap rank := by
  by_cases small : rank < 0x10000000000000
  · have binade : max (rank / 0x10000000000000) 1 = 1 := by omega
    rw [magnitude_of_small (by omega), magnitude_of_small (by omega), gap, binade, Nat.cast_succ,
      add_one_mul]
    rfl
  · obtain ⟨exponent, significand, rfl, low, high⟩ := exists_significand (Nat.le_of_not_lt small)
    rw [gap_of_significand low high, Nat.add_assoc, magnitude_of_significand (by omega) (by omega),
      magnitude_of_significand low (Nat.le_of_lt high), Nat.cast_succ, add_one_mul]

theorem magnitude_strictMono : StrictMono magnitude := by
  refine strictMono_nat_of_lt_succ fun rank => ?_
  rw [magnitude_succ]
  exact lt_add_of_pos_right _ (gap_pos rank)

theorem magnitude_nonneg (rank : Nat) : 0 ≤ magnitude rank := by
  rw [← magnitude_zero]
  exact magnitude_strictMono.monotone (Nat.zero_le rank)

/-- The number that a finite double stands for. -/
def toRat (x : Binary64) : ℚ :=
  if x.negative then -magnitude x.rank else magnitude x.rank

theorem magnitude_le_iff : magnitude rank ≤ magnitude other ↔ rank ≤ other :=
  magnitude_strictMono.le_iff_le

theorem magnitude_le_neg_iff : magnitude rank ≤ -magnitude other ↔ rank = 0 ∧ other = 0 := by
  constructor
  · intro le
    have first : magnitude rank ≤ magnitude 0 := by
      linarith [magnitude_zero, magnitude_nonneg other]
    have second : magnitude other ≤ magnitude 0 := by
      linarith [magnitude_zero, magnitude_nonneg rank]
    exact ⟨Nat.le_zero.mp (magnitude_le_iff.mp first), Nat.le_zero.mp (magnitude_le_iff.mp second)⟩
  · rintro ⟨rfl, rfl⟩
    rw [magnitude_zero, neg_zero]

/-- The positions of finite numbers on the line are in the order of the numbers. -/
theorem position_le_iff (x y : Binary64) : x.position ≤ y.position ↔ x.toRat ≤ y.toRat := by
  obtain ⟨signX, rankX, _⟩ := x
  obtain ⟨signY, rankY, _⟩ := y
  cases signX with
  | false =>
    cases signY with
    | false => exact Int.ofNat_le.trans magnitude_le_iff.symm
    | true =>
      change (rankX : Int) ≤ -rankY ↔ magnitude rankX ≤ -magnitude rankY
      rw [magnitude_le_neg_iff]
      omega
  | true =>
    cases signY with
    | false =>
      change -(rankX : Int) ≤ rankY ↔ -magnitude rankX ≤ magnitude rankY
      have below := magnitude_nonneg rankX
      have above := magnitude_nonneg rankY
      exact iff_of_true (by omega) (by linarith)
    | true =>
      change -(rankX : Int) ≤ -rankY ↔ -magnitude rankX ≤ -magnitude rankY
      rw [neg_le_neg_iff, neg_le_neg_iff, magnitude_le_iff]
      exact Int.ofNat_le

theorem position_eq_iff (x y : Binary64) : x.position = y.position ↔ x.toRat = y.toRat := by
  rw [le_antisymm_iff, le_antisymm_iff, position_le_iff, position_le_iff]

section

variable {low high : ℚ}

/-- Past the middle the greater of two numbers is nearer. -/
theorem abs_sub_high_le_iff (lt : low < high) :
    |q - high| ≤ |q - low| ↔ low + high ≤ 2 * q := by
  have squares : (q - low) ^ 2 - (q - high) ^ 2 = (high - low) * (2 * q - (low + high)) := by ring
  rw [← sq_le_sq, ← sub_nonneg, squares, mul_nonneg_iff_of_pos_left (sub_pos.mpr lt), sub_nonneg]

theorem abs_sub_low_le_iff (lt : low < high) :
    |q - low| ≤ |q - high| ↔ 2 * q ≤ low + high := by
  have squares : (q - high) ^ 2 - (q - low) ^ 2 = (high - low) * (low + high - 2 * q) := by ring
  rw [← sq_le_sq, ← sub_nonneg, squares, mul_nonneg_iff_of_pos_left (sub_pos.mpr lt), sub_nonneg]

theorem abs_sub_eq_iff (lt : low < high) : |q - low| = |q - high| ↔ 2 * q = low + high := by
  rw [le_antisymm_iff, abs_sub_low_le_iff lt, abs_sub_high_le_iff lt, ← le_antisymm_iff]

end

/-- No finite magnitude is nearer to a number than that of a rank, and another one is as near only
if the significand is even. -/
def RoundsTo (q : ℚ) (rank : Nat) : Prop :=
  ∀ other < infinityRank, |q - magnitude rank| ≤ |q - magnitude other| ∧
    (|q - magnitude rank| = |q - magnitude other| → other = rank ∨ rank % 2 = 0)

/-- A rank is the nearest up to the middles between it and its neighbours, and at a middle if it is
even. -/
theorem roundsTo_of_between
    (low : ∀ below, below + 1 = rank → magnitude below + magnitude rank ≤ 2 * q)
    (high : 2 * q ≤ magnitude rank + magnitude (rank + 1))
    (inside : rank % 2 = 0 ∨ 2 * q ≠ magnitude rank + magnitude (rank + 1) ∧
      ∀ below, below + 1 = rank → 2 * q ≠ magnitude below + magnitude rank) :
    RoundsTo q rank := by
  intro other _
  rcases Nat.lt_trichotomy other rank with less | rfl | greater
  · obtain ⟨below, rfl⟩ : ∃ below, below + 1 = rank := ⟨rank - 1, by omega⟩
    have lower := magnitude_strictMono.monotone (Nat.le_of_lt_succ less)
    have middle := low below rfl
    have apart := magnitude_strictMono less
    refine ⟨(abs_sub_high_le_iff apart).mpr (by linarith), fun tie => .inr ?_⟩
    have equal := (abs_sub_eq_iff apart).mp tie.symm
    exact inside.resolve_right fun between => between.2 below rfl (by linarith)
  · exact ⟨le_rfl, fun _ => .inl rfl⟩
  · have upper := magnitude_strictMono.monotone (Nat.succ_le_of_lt greater)
    have apart := magnitude_strictMono greater
    refine ⟨(abs_sub_low_le_iff apart).mpr (by linarith), fun tie => .inr ?_⟩
    have equal := (abs_sub_eq_iff apart).mp tie
    exact inside.resolve_right fun between => between.1 (by linarith)

/-- Between two ranks the lower one is the nearest up to the middle. -/
theorem roundsTo_of_above (above : magnitude rank ≤ q)
    (near : 2 * q ≤ magnitude rank + magnitude (rank + 1))
    (tie : 2 * q = magnitude rank + magnitude (rank + 1) → rank % 2 = 0) : RoundsTo q rank := by
  have lower : ∀ below, below + 1 = rank → magnitude below + magnitude rank < 2 * q := by
    rintro below rfl
    have := magnitude_strictMono below.lt_succ_self
    linarith
  refine roundsTo_of_between (fun below next => (lower below next).le) near ?_
  by_cases half : 2 * q = magnitude rank + magnitude (rank + 1)
  · exact .inl (tie half)
  · exact .inr ⟨half, fun below next => (lower below next).ne'⟩

/-- Between two ranks the upper one is the nearest from the middle on. -/
theorem roundsTo_of_below (below : q ≤ magnitude (rank + 1))
    (near : magnitude rank + magnitude (rank + 1) ≤ 2 * q)
    (tie : 2 * q = magnitude rank + magnitude (rank + 1) → (rank + 1) % 2 = 0) :
    RoundsTo q (rank + 1) := by
  have upper : 2 * q < magnitude (rank + 1) + magnitude (rank + 1 + 1) := by
    have := magnitude_strictMono (rank + 1).lt_succ_self
    linarith
  refine roundsTo_of_between ?_ upper.le ?_
  · intro below next
    cases next
    exact near
  · by_cases half : 2 * q = magnitude rank + magnitude (rank + 1)
    · exact .inl (tie half)
    · refine .inr ⟨upper.ne, fun below next => ?_⟩
      cases next
      exact half

/-- Of two ranks that are equally near both would be even, and so there would be a nearer one in
between. -/
theorem RoundsTo.not_lt (finite : other < infinityRank) (rounds : RoundsTo q rank)
    (roundsToo : RoundsTo q other) : ¬ rank < other := by
  intro less
  have apart := magnitude_strictMono less
  obtain ⟨near, even⟩ := rounds other finite
  obtain ⟨nearToo, evenToo⟩ := roundsToo rank (less.trans finite)
  have tie := le_antisymm near nearToo
  have between : rank + 1 < other := by
    have := even tie
    have := evenToo tie.symm
    omega
  have middle := (abs_sub_eq_iff apart).mp tie
  have nearest := (rounds (rank + 1) (between.trans finite)).1
  rw [abs_sub_low_le_iff (magnitude_strictMono rank.lt_succ_self)] at nearest
  have := magnitude_strictMono between
  linarith

theorem RoundsTo.unique (finite : rank < infinityRank) (finiteToo : other < infinityRank)
    (rounds : RoundsTo q rank) (roundsToo : RoundsTo q other) : rank = other :=
  Nat.le_antisymm (Nat.le_of_not_lt (roundsToo.not_lt finite rounds))
    (Nat.le_of_not_lt (rounds.not_lt finiteToo roundsToo))

theorem RoundsTo.mono (finite : rank < infinityRank) (finiteToo : other < infinityRank)
    (le : q ≤ r) (rounds : RoundsTo q rank) (roundsToo : RoundsTo r other) : rank ≤ other := by
  by_contra less
  have apart := magnitude_strictMono (Nat.lt_of_not_le less)
  have above := (abs_sub_high_le_iff apart).mp (rounds other finiteToo).1
  have below := (abs_sub_low_le_iff apart).mp (roundsToo rank finite).1
  have same : q = r := by linarith
  subst same
  exact less (rounds.unique finite finiteToo roundsToo).le

/-- What is the magnitude of a rank is nearest to it. -/
theorem RoundsTo.of_magnitude (rank : Nat) : RoundsTo (magnitude rank) rank := by
  intro other _
  rw [sub_self, abs_zero]
  refine ⟨abs_nonneg _, fun tie => .inl ?_⟩
  exact (magnitude_strictMono.injective (sub_eq_zero.mp (abs_eq_zero.mp tie.symm))).symm

end Conform.Binary64
