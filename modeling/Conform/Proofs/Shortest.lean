import Conform.Binary64.Text
import Conform.Proofs.Nearest

/-!
The digits of a number are enough: whatever decimal is chosen from the rounding interval of a
number, the number is the nearest to it.
-/

namespace Conform

namespace Decimal.Interval

variable {interval : Interval} {tie : Tie} {step candidate : Nat}

theorem admits_iff : interval.admits candidate = true ↔
    interval.low ≤ candidate ∧ candidate ≤ interval.high ∧
      (interval.closed = true ∨ candidate ≠ interval.low ∧ candidate ≠ interval.high) := by
  cases closed : interval.closed with
  | true => simp [admits, closed]
  | false =>
    simp only [admits, closed, Bool.false_eq_true, if_false, false_or, Bool.and_eq_true,
      decide_eq_true_eq]
    omega

theorem admits_of_onGrid? (found : interval.onGrid? tie step = some candidate) :
    interval.admits candidate = true := by
  unfold onGrid? at found
  simp only at found
  split at found
  case h_1 below above =>
    split at found
    · cases found
      exact below
    · split at found
      · cases found
        exact above
      · cases tie with
        | up =>
          cases found
          exact above
        | toEven =>
          cases found
          split
          · exact below
          · exact above
  case h_2 below _ =>
    cases found
    exact below
  case h_3 _ above =>
    cases found
    exact above
  case h_4 => cases found

theorem admits_coarsest (inside : interval.admits interval.mid = true) (places : Nat) :
    interval.admits (interval.coarsest tie places) = true := by
  induction places with
  | zero => exact inside
  | succ places ih =>
    rw [coarsest]
    cases found : interval.onGrid? tie (Nat.pow 10 (places + 1)) with
    | none => exact ih
    | some candidate => exact admits_of_onGrid? found

/-- The chosen decimal is one of those that stand for the number. -/
theorem admits_shortest (inside : interval.admits interval.mid = true) :
    interval.admits (interval.shortest tie) = true :=
  admits_coarsest inside _

end Decimal.Interval

namespace Binary64

open Decimal

variable {x : Binary64}

theorem significand_pos (nonzero : x.rank ≠ 0) : 0 < x.significand := by
  rw [significand]
  split <;> omega

theorem significand_mod_two (x : Binary64) : x.significand % 2 = x.rank % 2 := by
  rw [significand]
  split <;> omega

theorem gap_rank (x : Binary64) : gap x.rank = 4 * 2 ^ (x.scale - 2) := by
  have scale : gap x.rank = 2 ^ x.scale := rfl
  rw [scale, zpow_sub₀ (by norm_num)]
  norm_num
  ring

theorem gap_below {below : Nat} (next : below + 1 = x.rank) :
    gap below = (if x.narrowBelow then 1 else 2 : Nat) * 2 * 2 ^ (x.scale - 2) := by
  by_cases narrow : x.narrowBelow = true
  · have half : ((max (below / 0x10000000000000) 1 : Nat) - 1075 : Int) = x.scale - 2 + 1 := by
      simp only [narrowBelow, Bool.and_eq_true, beq_iff_eq, decide_eq_true_eq] at narrow
      rw [scale]
      omega
    rw [gap, half, zpow_add_one₀ (by norm_num), if_pos narrow]
    push_cast
    ring
  · have same : ((max (below / 0x10000000000000) 1 : Nat) - 1075 : Int) = x.scale - 2 + 1 + 1 := by
      simp only [narrowBelow, Bool.and_eq_true, beq_iff_eq, decide_eq_true_eq] at narrow
      rw [scale]
      omega
    rw [gap, same, zpow_add_one₀ (by norm_num), zpow_add_one₀ (by norm_num), if_neg narrow]
    push_cast
    ring

/-- Counted in powers of ten, the interval is made of quarters of the gap behind the number. -/
theorem factor_mul_scale (quarter : Int) :
    ((if 0 ≤ quarter then Nat.pow 2 quarter.toNat else Nat.pow 5 (-quarter).toNat : Nat) : ℚ) *
      10 ^ min quarter 0 = 2 ^ quarter := by
  split
  · rename_i whole
    obtain ⟨exponent, rfl⟩ := Int.eq_ofNat_of_zero_le whole
    rw [min_eq_right whole, zpow_zero, mul_one, Int.toNat_natCast, zpow_natCast]
    exact Nat.cast_pow 2 exponent
  · rename_i fraction
    obtain ⟨exponent, rfl⟩ : ∃ exponent : Nat, quarter = -exponent := ⟨(-quarter).toNat, by omega⟩
    have fives : ((Nat.pow 5 exponent : Nat) : ℚ) = 5 ^ exponent := Nat.cast_pow 5 exponent
    rw [min_eq_left (by omega), neg_neg, Int.toNat_natCast, fives, zpow_neg, zpow_neg,
      zpow_natCast, zpow_natCast, ← div_eq_mul_inv, ← div_pow, ← inv_pow]
    norm_num

variable {candidate : Nat} {interval : Interval} {scale : Int}

/-- The interval goes up to the middles between the number and its neighbours. -/
theorem roundingInterval_ends (nonzero : x.rank ≠ 0)
    (made : roundingInterval x.significand x.scale x.narrowBelow = (interval, scale)) :
    2 * (interval.high * 10 ^ scale) = magnitude x.rank + magnitude (x.rank + 1) ∧
      interval.mid * 10 ^ scale = magnitude x.rank ∧
      ∀ below, below + 1 = x.rank →
        2 * (interval.low * 10 ^ scale) = magnitude below + magnitude x.rank := by
  have unit := factor_mul_scale (x.scale - 2)
  have own : magnitude x.rank = x.significand * (4 * 2 ^ (x.scale - 2)) := by
    rw [magnitude_rank, ← gap_rank]
    rfl
  have narrow : (if x.narrowBelow then 1 else 2) ≤ 4 * x.significand := by
    have := significand_pos nonzero
    split <;> omega
  simp only [roundingInterval] at made
  generalize (if 0 ≤ x.scale - 2 then Nat.pow 2 (x.scale - 2).toNat
    else Nat.pow 5 (-(x.scale - 2)).toNat) = factor at unit made
  cases made
  have scaled : ∀ n : Nat, ((n * factor : Nat) : ℚ) * 10 ^ min (x.scale - 2) 0 =
      n * 2 ^ (x.scale - 2) := by
    intro n
    rw [Nat.cast_mul, mul_assoc, unit]
  refine ⟨?_, ?_, fun below next => ?_⟩
  · rw [scaled, magnitude_succ, gap_rank, own]
    push_cast
    ring
  · rw [scaled, own]
    push_cast
    ring
  · have step := magnitude_succ below
    rw [next, gap_below next] at step
    rw [scaled, Nat.cast_sub narrow]
    push_cast at step ⊢
    linarith

theorem admits_mid (nonzero : x.rank ≠ 0)
    (made : roundingInterval x.significand x.scale x.narrowBelow = (interval, scale)) :
    interval.admits interval.mid = true := by
  obtain ⟨high, mid, low⟩ := roundingInterval_ends nonzero made
  obtain ⟨below, next⟩ := Nat.exists_eq_succ_of_ne_zero nonzero
  have power : (0 : ℚ) < 10 ^ scale := zpow_pos (by norm_num) _
  have lower : (interval.low : ℚ) < interval.mid := by
    refine lt_of_mul_lt_mul_right ?_ power.le
    linarith [low below next.symm, magnitude_strictMono (next ▸ below.lt_succ_self)]
  have upper : (interval.mid : ℚ) < interval.high := by
    refine lt_of_mul_lt_mul_right ?_ power.le
    linarith [magnitude_strictMono x.rank.lt_succ_self]
  have lower := Nat.cast_lt.mp lower
  have upper := Nat.cast_lt.mp upper
  exact Interval.admits_iff.mpr ⟨lower.le, upper.le, .inr ⟨lower.ne', upper.ne⟩⟩

/-- To whatever decimal of its rounding interval, a number is the nearest. -/
theorem roundsTo_of_admits (nonzero : x.rank ≠ 0)
    (made : roundingInterval x.significand x.scale x.narrowBelow = (interval, scale))
    (admitted : interval.admits candidate = true) : RoundsTo (candidate * 10 ^ scale) x.rank := by
  obtain ⟨low, high, inside⟩ := Interval.admits_iff.mp admitted
  obtain ⟨highEnd, -, lowEnd⟩ := roundingInterval_ends nonzero made
  have power : (0 : ℚ) < 10 ^ scale := zpow_pos (by norm_num) _
  have lower := mul_le_mul_of_nonneg_right (Nat.cast_le.mpr low) power.le
  have upper := mul_le_mul_of_nonneg_right (Nat.cast_le.mpr high) power.le
  have even : interval.closed = (x.significand % 2 == 0) := by
    simp only [roundingInterval] at made
    cases made
    rfl
  refine roundsTo_of_between (fun below next => ?_) (by linarith) ?_
  · linarith [lowEnd below next]
  · refine inside.imp (fun closed => ?_) fun apart => ⟨fun same => ?_, fun below next same => ?_⟩
    · rw [even, significand_mod_two] at closed
      exact eq_of_beq closed
    · exact apart.2 (Nat.cast_injective (mul_right_cancel₀ power.ne' (by linarith)))
    · refine apart.1 (Nat.cast_injective (mul_right_cancel₀ power.ne' ?_))
      linarith [lowEnd below next]

end Binary64

end Conform
