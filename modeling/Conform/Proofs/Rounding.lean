import Conform.Proofs.Nearest
import Conform.Proofs.WholeNumber

/-!
Whole numbers as doubles: each becomes the nearest double, so that order is kept, and up to the
power of two behind the safe magnitudes nothing is rounded.
-/

namespace Conform.Binary64

variable {x : Binary64} {n m : Nat}

theorem magnitude_of_leading (excess : Nat) {lead : Nat} (low : 0x10000000000000 ≤ lead)
    (high : lead ≤ 0x20000000000000) :
    magnitude ((excess + 1074) * 0x10000000000000 + lead) = (lead * 2 ^ excess : Nat) := by
  have scale : ((excess + 1074 : Nat) - 1074 : Int) = (excess : Nat) := by omega
  rw [magnitude_of_significand low high, scale, zpow_natCast]
  push_cast
  rfl

theorem magnitude_rankOfNat_of_safe (safe : n ≤ maxSafeInteger) :
    magnitude (rankOfNat n) = n := by
  by_cases zero : n = 0
  · rw [zero, rankOfNat_zero, magnitude_zero, Nat.cast_zero]
  · obtain ⟨shift, low, high⟩ := exists_shifted zero safe
    obtain ⟨narrow, rank⟩ := rankOfNat_of_shifted rfl low high
    have scale : ((1074 - shift : Nat) - 1074 : Int) = -(shift : Nat) := by omega
    rw [rank, magnitude_of_significand low (Nat.le_of_lt high), scale, zpow_neg, zpow_natCast]
    push_cast
    exact mul_inv_cancel_right₀ (by positivity) _

/-- Nothing is rounded up to the power of two behind the safe magnitudes. -/
theorem magnitude_rankOfNat (narrow : n ≤ 2 ^ 53) : magnitude (rankOfNat n) = n := by
  rcases Nat.lt_or_eq_of_le narrow with safe | rfl
  · refine magnitude_rankOfNat_of_safe ?_
    unfold maxSafeInteger
    omega
  · have rank : rankOfNat (2 ^ 53) = (1 + 1074) * 0x10000000000000 + 0x10000000000000 := rfl
    rw [rank, magnitude_of_leading 1 le_rfl (by decide)]
    rfl

/-- A whole number is rounded to the nearest double, a half to the even one. -/
theorem roundsTo_rankOfNat (finite : rankOfNat n < infinityRank) : RoundsTo n (rankOfNat n) := by
  by_cases safe : n ≤ maxSafeInteger
  · have exact := RoundsTo.of_magnitude (rankOfNat n)
    rwa [magnitude_rankOfNat_of_safe safe] at exact
  · have positive : n ≠ 0 := by
      rintro rfl
      exact safe (Nat.zero_le _)
    have wide : 53 ≤ n.log2 :=
      (Nat.le_log2 positive).mpr (by unfold maxSafeInteger at safe; omega)
    obtain ⟨excess, log⟩ := Nat.exists_eq_add_of_le (show 52 ≤ n.log2 by omega)
    obtain ⟨low, high⟩ := quotient_bounds log
    have rank : rankOfNat n = (excess + 1074) * 0x10000000000000 + leadingBits n := by
      rw [rankOfNat, if_neg positive] at finite ⊢
      omega
    have lower := magnitude_of_leading excess low (Nat.le_of_lt high)
    have upper := magnitude_of_leading excess (Nat.le_succ_of_le low) high
    have next : (n / 2 ^ excess).succ * 2 ^ excess = n / 2 ^ excess * 2 ^ excess + 2 ^ excess :=
      Nat.succ_mul _ _
    have split : n / 2 ^ excess * 2 ^ excess + n % 2 ^ excess = n := Nat.div_add_mod' n _
    have bound : n % 2 ^ excess < 2 ^ excess := Nat.mod_lt _ (Nat.two_pow_pos _)
    rw [next] at upper
    rw [rank]
    rcases leadingBits_cases (by omega) log with ⟨down, near, tie⟩ | ⟨up, near, tie⟩
    · rw [down]
      refine roundsTo_of_above ?_ ?_ fun half => ?_
      · rw [lower]
        exact_mod_cast show _ ≤ n by omega
      · rw [Nat.add_assoc, lower, upper]
        exact_mod_cast show 2 * n ≤ _ by omega
      · rw [Nat.add_assoc, lower, upper] at half
        have middle : 2 * n = n / 2 ^ excess * 2 ^ excess +
            (n / 2 ^ excess * 2 ^ excess + 2 ^ excess) := by exact_mod_cast half
        omega
    · rw [up, ← Nat.add_assoc]
      refine roundsTo_of_below ?_ ?_ fun half => ?_
      · rw [Nat.add_assoc, upper]
        exact_mod_cast show n ≤ _ by omega
      · rw [Nat.add_assoc, lower, upper]
        exact_mod_cast show _ ≤ 2 * n by omega
      · rw [Nat.add_assoc, lower, upper] at half
        have middle : 2 * n = n / 2 ^ excess * 2 ^ excess +
            (n / 2 ^ excess * 2 ^ excess + 2 ^ excess) := by exact_mod_cast half
        omega

section

variable {n m : Int}

theorem toRat_ofInt (n : Int) : (ofInt n).toRat =
    if n < 0 then -magnitude (rankOfNat n.natAbs) else magnitude (rankOfNat n.natAbs) := by
  rw [toRat, ofInt]
  simp only [decide_eq_true_eq]

theorem toRat_ofInt_of_narrow (narrow : n.natAbs ≤ 2 ^ 53) : (ofInt n).toRat = n := by
  rw [toRat_ofInt, magnitude_rankOfNat narrow, Nat.cast_natAbs, abs_eq_max_neg]
  split
  · rename_i negative
    rw [max_eq_right (by omega)]
    push_cast
    exact neg_neg _
  · rename_i positive
    rw [max_eq_left (by omega)]

theorem natAbs_position (x : Binary64) : x.position.natAbs = x.rank := by
  rw [position]
  split <;> omega

/-- A whole number that is not rounded is written by one double only, negative zero apart. -/
theorem toRat_eq_iff (narrow : n.natAbs ≤ 2 ^ 53) (signed : x ≠ negativeZero) :
    x.toRat = n ↔ x = ofInt n := by
  constructor
  · intro same
    have position : x.position = (ofInt n).position :=
      (position_eq_iff _ _).mpr (same.trans (toRat_ofInt_of_narrow narrow).symm)
    have rank : x.rank = rankOfNat n.natAbs := by
      rw [← natAbs_position, position, natAbs_position]
      rfl
    have found := eq_ofInt signed rank
    have whole : (if x.negative then -(n.natAbs : Int) else n.natAbs) = n := by
      have bound : (if x.negative then -(n.natAbs : Int) else n.natAbs).natAbs ≤ 2 ^ 53 := by
        split <;> omega
      rw [found, toRat_ofInt_of_narrow bound] at same
      exact_mod_cast same
    rwa [whole] at found
  · rintro rfl
    exact toRat_ofInt_of_narrow narrow

theorem rankOfNat_mono {n m : Nat} (finite : rankOfNat n < infinityRank)
    (finiteToo : rankOfNat m < infinityRank) (le : n ≤ m) : rankOfNat n ≤ rankOfNat m :=
  RoundsTo.mono finite finiteToo (Nat.cast_le.mpr le) (roundsTo_rankOfNat finite)
    (roundsTo_rankOfNat finiteToo)

/-- Rounding keeps the order of whole numbers. -/
theorem toRat_ofInt_le (finite : (ofInt n).isFinite = true)
    (finiteToo : (ofInt m).isFinite = true) (le : n ≤ m) : (ofInt n).toRat ≤ (ofInt m).toRat := by
  have rank : rankOfNat n.natAbs < infinityRank := of_decide_eq_true finite
  have rankToo : rankOfNat m.natAbs < infinityRank := of_decide_eq_true finiteToo
  rw [toRat_ofInt, toRat_ofInt]
  by_cases negative : n < 0
  · rw [if_pos negative]
    by_cases negativeToo : m < 0
    · rw [if_pos negativeToo, neg_le_neg_iff, magnitude_le_iff]
      exact rankOfNat_mono rankToo rank (by omega)
    · rw [if_neg negativeToo]
      exact (neg_nonpos.mpr (magnitude_nonneg _)).trans (magnitude_nonneg _)
  · rw [if_neg negative, if_neg (by omega), magnitude_le_iff]
    exact rankOfNat_mono rank rankToo (by omega)

end

end Conform.Binary64
