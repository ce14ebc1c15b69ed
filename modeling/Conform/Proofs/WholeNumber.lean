import Conform.Binary64
import Mathlib.Algebra.Group.Nat.Defs
import Mathlib.Tactic.ByContra

/-!
Whole numbers in double precision: up to the safe magnitude every one of them is a double of its
own, and beyond it no double is taken for a whole number any more.
-/

namespace Conform.Binary64

variable {x : Binary64} {n : Nat}

section

variable {excess : Nat}

theorem quotient_bounds (log : n.log2 = 52 + excess) :
    0x10000000000000 ≤ n / 2 ^ excess ∧ n / 2 ^ excess < 0x20000000000000 := by
  have positive : n ≠ 0 := by
    rintro rfl
    rw [Nat.log2_zero] at log
    omega
  have least : 2 ^ n.log2 ≤ n := Nat.log2_self_le positive
  have most : n < 2 ^ (n.log2 + 1) := Nat.lt_log2_self
  constructor
  · rw [Nat.le_div_iff_mul_le (Nat.two_pow_pos _)]
    rwa [log, Nat.pow_add] at least
  · rw [Nat.div_lt_iff_lt_mul (Nat.two_pow_pos _)]
    rwa [log, Nat.add_right_comm, Nat.pow_add] at most

/-- The leading bits are rounded down or up, at a half to the even ones. -/
theorem leadingBits_cases (wide : 0 < excess) (log : n.log2 = 52 + excess) :
    leadingBits n = n / 2 ^ excess ∧ 2 * (n % 2 ^ excess) ≤ 2 ^ excess ∧
        (2 * (n % 2 ^ excess) = 2 ^ excess → n / 2 ^ excess % 2 = 0) ∨
      leadingBits n = n / 2 ^ excess + 1 ∧ 2 ^ excess ≤ 2 * (n % 2 ^ excess) ∧
        (2 * (n % 2 ^ excess) = 2 ^ excess → n / 2 ^ excess % 2 = 1) := by
  rw [leadingBits, if_neg (by omega), log, Nat.add_sub_cancel_left, Nat.one_shiftLeft]
  simp only [Bool.or_eq_true, Bool.and_eq_true, decide_eq_true_eq, beq_iff_eq]
  split <;> omega

/-- The leading bits have 53 places, or are the carry into one more. -/
theorem leadingBits_bounds (positive : n ≠ 0) :
    0x10000000000000 ≤ leadingBits n ∧ leadingBits n ≤ 0x20000000000000 := by
  by_cases narrow : n.log2 ≤ 52
  · have low := Nat.mul_le_mul_right (2 ^ (52 - n.log2)) (Nat.log2_self_le positive)
    have high := Nat.mul_le_mul_right (2 ^ (52 - n.log2)) (Nat.le_of_lt (Nat.lt_log2_self (n := n)))
    rw [← Nat.pow_add, Nat.add_sub_cancel' narrow] at low
    rw [← Nat.pow_add, Nat.add_right_comm, Nat.add_sub_cancel' narrow] at high
    rw [leadingBits, if_pos narrow, Nat.shiftLeft_eq]
    exact ⟨low, high⟩
  · obtain ⟨excess, log⟩ := Nat.exists_eq_add_of_le (show 52 ≤ n.log2 by omega)
    have bounds := quotient_bounds log
    rcases leadingBits_cases (by omega) log with ⟨down, _⟩ | ⟨up, _⟩ <;> omega

end

theorem rankOfNat_zero : rankOfNat 0 = 0 := rfl

/-- The rank of a whole number that a shift makes into a significand. -/
theorem rankOfNat_of_shifted {shift significand : Nat} (shifted : n * 2 ^ shift = significand)
    (low : 0x10000000000000 ≤ significand) (high : significand < 0x20000000000000) :
    shift ≤ 52 ∧ rankOfNat n = (1074 - shift) * 0x10000000000000 + significand := by
  have positive : n ≠ 0 := by
    rintro rfl
    omega
  have least : 2 ^ shift ≤ significand := by
    rw [← shifted]
    exact Nat.le_mul_of_pos_left _ (Nat.pos_of_ne_zero positive)
  have narrow : shift ≤ 52 := by
    by_contra wide
    have : 2 ^ 53 ≤ 2 ^ shift := Nat.pow_le_pow_right (by decide) (by omega)
    omega
  have split : 2 ^ (52 - shift) * 2 ^ shift = 0x10000000000000 := by
    rw [← Nat.pow_add, Nat.sub_add_cancel narrow]
  have log : n.log2 = 52 - shift := by
    refine (Nat.log2_eq_iff positive).mpr ⟨?_, ?_⟩
    · refine Nat.le_of_mul_le_mul_right ?_ (Nat.two_pow_pos shift)
      rw [split, shifted]
      exact low
    · refine Nat.lt_of_mul_lt_mul_right (a := 2 ^ shift) ?_
      rw [Nat.pow_succ, Nat.mul_right_comm, split, shifted]
      exact high
  have leading : leadingBits n = significand := by
    rw [leadingBits, log, if_pos (by omega), Nat.shiftLeft_eq, Nat.sub_sub_self narrow, shifted]
  refine ⟨narrow, ?_⟩
  rw [rankOfNat, if_neg positive, log, leading, infinityRank]
  omega

/-- A shift makes every safe magnitude but zero into a significand, so that nothing is rounded. -/
theorem exists_shifted (positive : n ≠ 0) (safe : n ≤ maxSafeInteger) :
    ∃ shift, 0x10000000000000 ≤ n * 2 ^ shift ∧ n * 2 ^ shift < 0x20000000000000 := by
  have narrow : n.log2 ≤ 52 := by
    have := (Nat.log2_lt positive (k := 53)).mpr (by unfold maxSafeInteger at safe; omega)
    omega
  have split : 2 ^ n.log2 * 2 ^ (52 - n.log2) = 0x10000000000000 := by
    rw [← Nat.pow_add, Nat.add_sub_cancel' narrow]
  refine ⟨52 - n.log2, ?_, ?_⟩
  · rw [← split]
    exact Nat.mul_le_mul_right _ (Nat.log2_self_le positive)
  · have below := Nat.mul_lt_mul_of_pos_right (Nat.lt_log2_self (n := n))
      (Nat.two_pow_pos (52 - n.log2))
    rwa [Nat.pow_succ, Nat.mul_right_comm, split] at below

theorem rankOfNat_of_safe (positive : n ≠ 0) (safe : n ≤ maxSafeInteger) :
    0 < rankOfNat n ∧ rankOfNat n < 1076 * 0x10000000000000 := by
  obtain ⟨shift, low, high⟩ := exists_shifted positive safe
  obtain ⟨narrow, rank⟩ := rankOfNat_of_shifted rfl low high
  omega

theorem rankOfNat_of_large (large : maxSafeInteger < n) :
    1076 * 0x10000000000000 ≤ rankOfNat n := by
  have log : 53 ≤ n.log2 :=
    (Nat.le_log2 (by omega)).mpr (by unfold maxSafeInteger at large; omega)
  have leading := leadingBits_bounds (n := n) (by omega)
  rw [rankOfNat, if_neg (by omega), infinityRank]
  omega

/-- Whole numbers of 64 bits are far from infinity. -/
theorem isFinite_ofInt {n : Int} (narrow : n.natAbs ≤ 0xffffffffffffffff) :
    (ofInt n).isFinite = true := by
  have finite : rankOfNat n.natAbs < infinityRank := by
    by_cases zero : n.natAbs = 0
    · rw [zero]
      decide
    · have log := (Nat.log2_lt zero (k := 64)).mpr (by omega)
      have leading := leadingBits_bounds zero
      rw [rankOfNat, if_neg zero, infinityRank]
      omega
  exact decide_eq_true finite

theorem wholeMagnitude?_of_subnormal (small : x.rank < 0x10000000000000) :
    x.wholeMagnitude? = if x.rank = 0 then some 0 else none := by
  have exponent : x.scale = -1074 := by
    rw [scale]
    omega
  have unit : (-x.scale).toNat = 1074 := by
    rw [exponent]
    rfl
  have large : 0x10000000000000 < 1 <<< 1074 := by decide
  rw [wholeMagnitude?, if_neg (by omega), unit, significand, if_pos small]
  simp only
  rw [Nat.mod_eq_of_lt (by omega), Nat.div_eq_of_lt (by omega)]

/-- A significand that is shifted down is whole when no bit is lost. -/
theorem wholeMagnitude?_of_shifted {shift fraction : Nat}
    (placed : x.rank = (1075 - shift) * 0x10000000000000 + fraction) (narrow : shift ≤ 1074)
    (bound : fraction < 0x10000000000000) :
    x.wholeMagnitude? =
      if (0x10000000000000 + fraction) % 2 ^ shift = 0 then
        some ((0x10000000000000 + fraction) / 2 ^ shift)
      else none := by
  have exponent : x.scale = -shift := by
    rw [scale]
    omega
  have own : x.significand = 0x10000000000000 + fraction := by
    rw [significand, if_neg (by omega)]
    omega
  rw [wholeMagnitude?, exponent, own]
  cases shift with
  | zero => simp [Nat.mod_one]
  | succ shift =>
    rw [if_neg (by omega), Int.neg_neg, Int.toNat_natCast, Nat.one_shiftLeft]

/-- A significand that is shifted up is not safe. -/
theorem wholeMagnitude?_of_large (large : 1076 * 0x10000000000000 ≤ x.rank)
    (whole : x.wholeMagnitude? = some n) : maxSafeInteger < n := by
  have exponent : 1 ≤ x.scale := by
    rw [scale]
    omega
  have own : 0x10000000000000 ≤ x.significand := by
    rw [significand, if_neg (by omega)]
    omega
  rw [wholeMagnitude?, if_pos (by omega), Nat.shiftLeft_eq] at whole
  have shift : 2 ^ 1 ≤ 2 ^ x.scale.toNat := Nat.pow_le_pow_right (by decide) (by omega)
  have bound := Nat.mul_le_mul own shift
  cases whole
  unfold maxSafeInteger
  omega

theorem wholeMagnitude?_of_rank (safe : n ≤ maxSafeInteger) (same : x.rank = rankOfNat n) :
    x.wholeMagnitude? = some n := by
  by_cases zero : n = 0
  · subst zero
    rw [rankOfNat_zero] at same
    rw [wholeMagnitude?_of_subnormal (by omega), if_pos same]
  · obtain ⟨shift, low, high⟩ := exists_shifted zero safe
    obtain ⟨narrow, rank⟩ := rankOfNat_of_shifted rfl low high
    obtain ⟨fraction, split⟩ := Nat.exists_eq_add_of_le low
    have placed : x.rank = (1075 - shift) * 0x10000000000000 + fraction := by omega
    rw [wholeMagnitude?_of_shifted placed (by omega) (by omega), ← split,
      if_pos (Nat.mul_mod_left _ _), Nat.mul_div_cancel _ (Nat.two_pow_pos shift)]

theorem rank_of_wholeMagnitude? (whole : x.wholeMagnitude? = some n) (safe : n ≤ maxSafeInteger) :
    x.rank = rankOfNat n := by
  by_cases small : x.rank < 0x10000000000000
  · rw [wholeMagnitude?_of_subnormal small] at whole
    split at whole
    · rename_i zero
      cases whole
      exact zero
    · cases whole
  · have below : x.rank < 1076 * 0x10000000000000 := by
      by_contra large
      have := wholeMagnitude?_of_large (by omega) whole
      omega
    obtain ⟨shift, fraction, placed, narrow, bound⟩ : ∃ shift fraction,
        x.rank = (1075 - shift) * 0x10000000000000 + fraction ∧ shift ≤ 1074 ∧
          fraction < 0x10000000000000 :=
      ⟨1075 - x.rank / 0x10000000000000, x.rank % 0x10000000000000, by omega, by omega, by omega⟩
    rw [wholeMagnitude?_of_shifted placed narrow bound] at whole
    split at whole
    · rename_i divisible
      cases whole
      have shifted := Nat.div_mul_cancel (Nat.dvd_of_mod_eq_zero divisible)
      obtain ⟨_, rank⟩ := rankOfNat_of_shifted shifted (by omega) (by omega)
      omega
    · cases whole

/-- A sign and the rank of a whole number are those of a whole number, negative zero apart. -/
theorem eq_ofInt (signed : x ≠ negativeZero) (rank : x.rank = rankOfNat n) :
    x = ofInt (if x.negative then -(n : Int) else n) := by
  obtain ⟨negative, rank, _⟩ := x
  subst rank
  cases negative with
  | false => simp [ofInt]
  | true =>
    have positive : n ≠ 0 := by
      rintro rfl
      exact signed rfl
    simp [ofInt]
    omega

/-- A whole number that doubles tell apart from all others. -/
def Safe (n : Int) : Prop :=
  n.natAbs ≤ maxSafeInteger

instance (n : Int) : Decidable (Safe n) :=
  inferInstanceAs (Decidable (_ ≤ _))

theorem isFinite_ofInt_of_safe {n : Int} (safe : Safe n) : (ofInt n).isFinite = true := by
  apply isFinite_ofInt
  unfold Safe maxSafeInteger at safe
  omega

theorem ofInt_ne_negativeZero {n : Int} (safe : Safe n) : ofInt n ≠ negativeZero := by
  intro same
  have negative : n < 0 := by simpa [ofInt, negativeZero] using congrArg Binary64.negative same
  obtain ⟨positive, _⟩ := rankOfNat_of_safe (n := n.natAbs) (by omega) safe
  have rank : rankOfNat n.natAbs = 0 := congrArg Binary64.rank same
  omega

/-- A double stands for a whole number beyond doubt when the number is safe and the double is its
own. -/
theorem toInt?_eq_some_iff {n : Int} : x.toInt? = some n ↔ Safe n ∧ x = ofInt n := by
  constructor
  · intro whole
    refine ⟨toInt?_natAbs_le whole, ?_⟩
    unfold toInt? at whole
    split at whole
    · rename_i usable
      split at whole
      · rename_i magnitude found
        split at whole
        · rename_i bound
          cases whole
          have signed : x ≠ negativeZero := by simpa using (Bool.and_eq_true_iff.mp usable).2
          exact eq_ofInt signed (rank_of_wholeMagnitude? found bound)
        · cases whole
      · cases whole
    · cases whole
  · rintro ⟨safe, rfl⟩
    have whole : (ofInt n).wholeMagnitude? = some n.natAbs := wholeMagnitude?_of_rank safe rfl
    have finite : (ofInt n).isFinite = true := isFinite_ofInt_of_safe safe
    have usable : ((ofInt n).isFinite && ofInt n != negativeZero) = true := by
      rw [finite, Bool.true_and, bne_iff_ne]
      exact ofInt_ne_negativeZero safe
    rw [toInt?, if_pos usable, whole]
    unfold Safe at safe
    simp only [if_pos safe, ofInt, decide_eq_true_eq, Option.some.injEq]
    split <;> omega

/-- The double of an unsafe whole number is taken for no whole number at all, so never for a
neighbour. -/
theorem toInt?_ofInt (n : Int) : (ofInt n).toInt? = if Safe n then some n else none := by
  split
  · rename_i safe
    exact toInt?_eq_some_iff.mpr ⟨safe, rfl⟩
  · rename_i large
    refine Option.eq_none_iff_forall_ne_some.mpr fun other whole => ?_
    obtain ⟨safe, same⟩ := toInt?_eq_some_iff.mp whole
    have rank : rankOfNat n.natAbs = rankOfNat other.natAbs := congrArg Binary64.rank same
    have above := rankOfNat_of_large (Nat.lt_of_not_le large)
    by_cases zero : other.natAbs = 0
    · rw [zero, rankOfNat_zero] at rank
      omega
    · obtain ⟨_, small⟩ := rankOfNat_of_safe zero safe
      omega

end Conform.Binary64
