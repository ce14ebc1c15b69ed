import Conform.Datum
import Conform.Proofs.Narrowing
import Conform.Proofs.Rounding

/-!
Whole numbers that become values, by whatever way: they become the same number, which is the
nearest, and the pattern of a whole number accepts them.
-/

namespace Conform

/-- The ways in which a whole number becomes a value. -/
inductive Value.OfInteger (n : Int) : Value → Prop where
  | direct : OfInteger n (.ofInt n)
  /-- As the content of a literal. -/
  | literal : OfInteger n (.scalar (.ofInt n))
  | document (inRange : Json.InRange n) : OfInteger n (.ofJson (.number (.integer n inRange)))
  | offered {value : Value} (converted : Value.ofDatum (.integer n) = .ok value) :
      OfInteger n value

variable {n m : Int} {value : Value}

/-- All ways lead to the same number. -/
theorem Value.OfInteger.eq_number (way : Value.OfInteger n value) :
    value = .number (.ofInt n) := by
  cases way with
  | direct | literal | document => rfl
  | offered converted =>
    rw [ofDatum, Datum.toJson, Json.ofInt?] at converted
    by_cases inRange : Json.InRange n
    · rw [dif_pos inRange] at converted
      cases converted
      rfl
    · rw [dif_neg inRange] at converted
      cases converted

theorem Value.ofDatum_integer (inRange : Json.InRange n) :
    Value.ofDatum (.integer n) = .ok (.number (.ofInt n)) := by
  rw [ofDatum, Datum.toJson, Json.ofInt?, dif_pos inRange]
  rfl

namespace Binary64

theorem isNaN_of_isFinite {x : Binary64} (finite : x.isFinite = true) : x.isNaN = false :=
  decide_eq_false (Nat.lt_asymm (of_decide_eq_true finite))

theorem equal_iff_toRat {x y : Binary64} (finite : x.isFinite = true)
    (finiteToo : y.isFinite = true) : x.equal y = true ↔ x.toRat = y.toRat := by
  rw [equal_iff, position_eq_iff]
  simp only [isNaN_of_isFinite finite, isNaN_of_isFinite finiteToo, true_and]

theorem less_eq_false_of_le {x y : Binary64} (le : x.toRat ≤ y.toRat) : y.less x = false := by
  rw [less, decide_eq_false (not_lt.mpr ((position_le_iff x y).mpr le)), Bool.and_false]

end Binary64

/-- The pattern of a whole number accepts the values of those that are rounded like it. -/
theorem Pattern.accepts_ofInteger_iff (finite : (Binary64.ofInt n).isFinite = true)
    (finiteToo : (Binary64.ofInt m).isFinite = true) (way : Value.OfInteger n value) :
    (Pattern.ofInt m).accepts value = true ↔
      (Binary64.ofInt m).toRat = (Binary64.ofInt n).toRat := by
  rw [way.eq_number, ← Binary64.equal_iff_toRat finiteToo finite]
  exact Iff.rfl

theorem Json.inRange_toInt (n : Int64) : InRange n.toInt := by
  have least := n.le_toInt
  have most := n.toInt_lt
  unfold InRange
  omega

theorem Binary64.isFinite_ofInt64 (n : Int64) : (ofInt n.toInt).isFinite = true := by
  have least := n.le_toInt
  have most := n.toInt_lt
  exact isFinite_ofInt (by omega)

/-- Whole numbers of 64 bits become the nearest double, whatever way they take, so that the pattern
of one accepts it, and those of 32 bits are not changed at all. Order is kept, and up to the power
of two behind the safe magnitudes no two are confused. -/
theorem integers_agree_and_discriminate :
    (∀ (n : Int64) (value : Value), Value.OfInteger n.toInt value →
      value = .number (.ofInt n.toInt) ∧ (Pattern.ofInt n.toInt).accepts value = true) ∧
    (∀ n : Int64, Json.InRange n.toInt ∧
      Value.ofDatum (.integer n.toInt) = .ok (.number (.ofInt n.toInt)) ∧
      (Binary64.ofInt n.toInt).negative = decide (n < 0) ∧
      (Binary64.ofInt n.toInt).isFinite = true ∧
      Binary64.RoundsTo n.toInt.natAbs (Binary64.ofInt n.toInt).rank) ∧
    (∀ n : Int32, Value.ofInt n.toInt = .ofInt n.toInt64.toInt ∧
      ∀ x : Binary64, x ≠ .negativeZero → (x.toRat = n.toInt ↔ x = .ofInt n.toInt)) ∧
    (∀ n : UInt32, Value.ofInt n.toNat = .ofInt (Int64.ofNat n.toNat).toInt ∧
      ∀ x : Binary64, x ≠ .negativeZero → (x.toRat = n.toNat ↔ x = .ofInt n.toNat)) ∧
    (∀ n m : Int64, n ≤ m → (Binary64.ofInt n.toInt).toRat ≤ (Binary64.ofInt m.toInt).toRat ∧
      (Binary64.ofInt m.toInt).less (.ofInt n.toInt) = false) ∧
    (∀ n m : Int64, n.toInt.natAbs ≤ 2 ^ 53 → m.toInt.natAbs ≤ 2 ^ 53 →
      ∀ value, Value.OfInteger n.toInt value →
        ((Pattern.ofInt m.toInt).accepts value = true ↔ n = m)) := by
  refine ⟨?agree, ?rounded, ?signed, ?unsigned, ?ordered, ?apart⟩
  case agree =>
    intro n value way
    have finite := Binary64.isFinite_ofInt64 n
    exact ⟨way.eq_number, (Pattern.accepts_ofInteger_iff finite finite way).mpr rfl⟩
  case rounded =>
    intro n
    have finite := Binary64.isFinite_ofInt64 n
    refine ⟨Json.inRange_toInt n, Value.ofDatum_integer (Json.inRange_toInt n), ?_, finite,
      Binary64.roundsTo_rankOfNat (of_decide_eq_true finite)⟩
    exact decide_eq_decide.mpr (Int64.lt_iff_toInt_lt (y := 0)).symm
  case signed =>
    intro n
    have least := n.le_toInt
    have most := n.toInt_lt
    rw [Int32.toInt_toInt64]
    exact ⟨rfl, fun x proper => Binary64.toRat_eq_iff (by omega) proper⟩
  case unsigned =>
    intro n
    have bound := n.toNat_lt
    rw [Int64.toInt_ofNat_of_lt (by omega)]
    exact ⟨rfl, fun x proper => Binary64.toRat_eq_iff (n := n.toNat) (by omega) proper⟩
  case ordered =>
    intro n m le
    have kept := Binary64.toRat_ofInt_le (Binary64.isFinite_ofInt64 n)
      (Binary64.isFinite_ofInt64 m) (Int64.le_iff_toInt_le.mp le)
    exact ⟨kept, Binary64.less_eq_false_of_le kept⟩
  case apart =>
    intro n m narrow narrowToo value way
    rw [Pattern.accepts_ofInteger_iff (Binary64.isFinite_ofInt64 n) (Binary64.isFinite_ofInt64 m)
      way, Binary64.toRat_ofInt_of_narrow narrow, Binary64.toRat_ofInt_of_narrow narrowToo]
    rw [Int.cast_inj, eq_comm, Int64.toInt_inj]

/-- At the bound neighbours are told apart, and behind it they are not. -/
theorem integers_agree_and_discriminate_bound :
    (Pattern.ofInt (9007199254740992 : Int64).toInt).accepts
        (.ofJson (.number (.integer (9007199254740991 : Int64).toInt (by decide)))) = false ∧
      (Pattern.ofInt (9007199254740992 : Int64).toInt).accepts
        (.ofInt (9007199254740992 : Int64).toInt) = true ∧
      (Pattern.ofInt (9007199254740992 : Int64).toInt).accepts (.ofInt 9007199254740993) = true ∧
      (Binary64.ofInt (9007199254740993 : Int64).toInt).toRat ≤
        (Binary64.ofInt (9223372036854775807 : Int64).toInt).toRat ∧
      (Binary64.ofInt (-2147483648 : Int32).toInt).toRat = (-2147483648 : Int32).toInt := by
  obtain ⟨agree, _, signed, _, ordered, apart⟩ := integers_agree_and_discriminate
  refine ⟨?_, (agree _ _ .direct).2, rfl, (ordered _ _ (by decide)).1, ?_⟩
  · rw [Bool.eq_false_iff, ne_eq, apart 9007199254740991 9007199254740992 (by decide) (by decide) _
      (.document (by decide))]
    decide
  · exact ((signed _).2 _ (by decide)).mpr rfl

end Conform
