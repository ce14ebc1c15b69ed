import Conform.Proofs.Shortest
import Mathlib.Data.List.TakeWhile

/-!
Texts of numbers. Written without an exponent, a numeral reads back as the decimal that it stands
for, so that the text of a number shows the number, up to which of those that are none it is.
-/

namespace Conform

namespace Decimal

variable {whole fraction digits : List Char}

/-- The number that digits around a decimal point write. -/
def readPositional (text : List Char) : ℚ :=
  let whole := text.takeWhile (· != '.')
  let fraction := (text.dropWhile (· != '.')).tail
  Nat.ofDigitChars 10 (whole ++ fraction) 0 / 10 ^ fraction.length

theorem bne_point (plain : '.' ∉ digits) : ∀ c ∈ digits, (c != '.') = true := by
  intro c member
  rw [bne_iff_ne]
  rintro rfl
  exact plain member

theorem readPositional_point (plain : '.' ∉ whole) (fraction : List Char) :
    readPositional (whole ++ '.' :: fraction) =
      Nat.ofDigitChars 10 (whole ++ fraction) 0 / 10 ^ fraction.length := by
  rw [readPositional, List.takeWhile_append_of_pos (bne_point plain),
    List.dropWhile_append_of_pos (bne_point plain)]
  simp

theorem readPositional_whole (plain : '.' ∉ digits) :
    readPositional digits = Nat.ofDigitChars 10 digits 0 := by
  have taken : (digits ++ []).takeWhile (· != '.') = digits ++ [] :=
    List.takeWhile_append_of_pos (bne_point plain)
  have dropped : (digits ++ []).dropWhile (· != '.') = [] :=
    List.dropWhile_append_of_pos (bne_point plain)
  rw [List.append_nil] at taken dropped
  rw [readPositional, taken, dropped]
  simp

/-- The number that a numeral stands for. -/
def Numeral.value (numeral : Numeral) : ℚ :=
  Nat.ofDigitChars 10 numeral.digits 0 * 10 ^ (numeral.point - numeral.digits.length)

theorem exists_zeros (digits : List Char) : ∃ count,
    digits = (digits.reverse.dropWhile (· == '0')).reverse ++ List.replicate count '0' := by
  refine ⟨(digits.reverse.takeWhile (· == '0')).length, ?_⟩
  have zero : ∀ c ∈ digits.reverse.takeWhile (· == '0'), c = '0' :=
    fun c member => eq_of_beq (List.mem_takeWhile_imp (p := (· == '0')) member)
  rw [← List.reverse_replicate, ← List.eq_replicate_iff.mpr ⟨rfl, zero⟩, ← List.reverse_append,
    List.takeWhile_append_dropWhile, List.reverse_reverse]

/-- The zeros that are left out at the end are kept in the place of the point. -/
theorem Numeral.value_ofScaled (n : Nat) (scale : Int) :
    (Numeral.ofScaled n scale).value = n * 10 ^ scale := by
  obtain ⟨count, split⟩ := exists_zeros (Nat.toDigits 10 n)
  rw [value, ofScaled]
  simp only
  generalize ((Nat.toDigits 10 n).reverse.dropWhile (· == '0')).reverse = digits at split
  have length : ((Nat.toDigits 10 n).length + scale - digits.length : Int) = count + scale := by
    rw [split, List.length_append, List.length_replicate]
    omega
  have number : n = 10 ^ count * Nat.ofDigitChars 10 digits 0 := by
    rw [← Nat.ofDigitChars_replicate_zero, ← Nat.ofDigitChars_append, ← split,
      Nat.ofDigitChars_ten_toDigits]
  have ten : (10 : ℚ) ≠ 0 := by norm_num
  rw [length, number, zpow_add₀ ten, zpow_natCast]
  push_cast
  ring

namespace Style

theorem writePositional_eq (style : Style) (numeral : Numeral) :
    style.writePositional numeral =
      if numeral.point ≤ 0 then
        '0' :: '.' :: (List.replicate (-numeral.point).toNat '0' ++ numeral.digits)
      else if numeral.digits.length ≤ numeral.point then
        numeral.digits ++ List.replicate (numeral.point - numeral.digits.length).toNat '0'
          ++ (if style.zeroFraction then ['.', '0'] else [])
      else
        numeral.digits.take numeral.point.toNat ++ '.' :: numeral.digits.drop numeral.point.toNat :=
  rfl

/-- What is written without an exponent reads back. -/
theorem readPositional_writePositional {style : Style} {numeral : Numeral}
    (bare : style.zeroFraction = false) (plain : '.' ∉ numeral.digits) :
    readPositional (style.writePositional numeral) = numeral.value := by
  obtain ⟨digits, point⟩ := numeral
  change '.' ∉ digits at plain
  rw [writePositional_eq, Numeral.value, bare]
  simp only [Bool.false_eq_true, if_false, List.append_nil]
  split
  · obtain ⟨zeros, rfl⟩ : ∃ zeros : Nat, point = -zeros := ⟨(-point).toNat, by omega⟩
    have scale : (-(zeros : Int) - digits.length) =
        -((List.replicate zeros '0' ++ digits).length : Nat) := by
      rw [List.length_append, List.length_replicate]
      omega
    have leading : Nat.ofDigitChars 10 (['0'] ++ (List.replicate zeros '0' ++ digits)) 0 =
        Nat.ofDigitChars 10 digits 0 := by
      rw [Nat.ofDigitChars_append, Nat.ofDigitChars_append, Nat.ofDigitChars_replicate_zero]
      rfl
    rw [neg_neg, Int.toNat_natCast, scale, zpow_neg, zpow_natCast, ← div_eq_mul_inv, ← leading]
    have zero : '.' ∉ ['0'] := by decide
    exact readPositional_point zero _
  · split
    · rename_i short
      obtain ⟨zeros, rfl⟩ : ∃ zeros : Nat, point = digits.length + zeros :=
        ⟨(point - digits.length).toNat, by omega⟩
      have inside : '.' ∉ digits ++ List.replicate zeros '0' := by
        rw [List.mem_append, not_or]
        exact ⟨plain, fun member => absurd (List.eq_of_mem_replicate member) (by decide)⟩
      rw [add_sub_cancel_left, Int.toNat_natCast, readPositional_whole inside,
        Nat.ofDigitChars_append, Nat.ofDigitChars_replicate_zero, zpow_natCast]
      push_cast
      ring
    · obtain ⟨count, rfl⟩ : ∃ count : Nat, point = count := ⟨point.toNat, by omega⟩
      have scale : (count : Int) - digits.length = -((digits.drop count).length : Nat) := by
        rw [List.length_drop]
        omega
      rw [Int.toNat_natCast, scale, zpow_neg, zpow_natCast, ← div_eq_mul_inv,
        readPositional_point (fun member => plain (List.mem_of_mem_take member)),
        List.take_append_drop]

theorem mem_writePositional {style : Style} {numeral : Numeral} {c : Char}
    (member : c ∈ style.writePositional numeral) : c ∈ numeral.digits ∨ c = '0' ∨ c = '.' := by
  rw [writePositional_eq] at member
  split at member
  · simp only [List.mem_cons, List.mem_append, List.mem_replicate] at member
    tauto
  · split at member
    · have last : c ∈ (if style.zeroFraction then ['.', '0'] else []) → c = '0' ∨ c = '.' := by
        split <;> simp +contextual [or_comm]
      simp only [List.mem_append, List.mem_replicate] at member
      tauto
    · rcases List.mem_append.mp member with before | behind
      · exact .inl (List.mem_of_mem_take before)
      · rcases List.mem_cons.mp behind with point | after
        · exact .inr (.inr point)
        · exact .inl (List.mem_of_mem_drop after)

end Style

theorem Numeral.isDigit_of_mem_ofScaled {n : Nat} {scale : Int} {c : Char}
    (member : c ∈ (Numeral.ofScaled n scale).digits) : c.isDigit = true := by
  have inside : c ∈ Nat.toDigits 10 n := by
    rw [ofScaled, List.mem_reverse] at member
    exact List.mem_reverse.mp ((List.dropWhile_suffix _).subset member)
  exact Nat.isDigit_of_mem_toDigits (by decide) (by decide) inside

end Decimal

namespace Binary64

open Decimal

variable {x y : Binary64}

/-- The digits of the magnitude of a finite number, with their point. -/
def digits (x : Binary64) : List Char :=
  if x.rank = 0 then plainStyle.writeZero else plainStyle.write (x.numeral plainStyle.tie)

theorem exists_numeral (x : Binary64) : ∃ numeral : Numeral,
    x.digits = plainStyle.writePositional numeral ∧ (∀ c ∈ numeral.digits, c.isDigit = true) ∧
      RoundsTo numeral.value x.rank := by
  by_cases zero : x.rank = 0
  · have none : Numeral.value ⟨['0'], 1⟩ = magnitude 0 := by
      rw [magnitude_zero]
      exact zero_mul _
    refine ⟨⟨['0'], 1⟩, by rw [digits, if_pos zero]; rfl, by simp, ?_⟩
    rw [none, zero]
    exact RoundsTo.of_magnitude 0
  · cases made : roundingInterval x.significand x.scale x.narrowBelow with
    | mk interval scale =>
      have numeral : x.numeral plainStyle.tie =
          .ofScaled (interval.shortest plainStyle.tie) scale := by
        rw [numeral, made]
      refine ⟨_, by rw [digits, if_neg zero, numeral]; rfl,
        fun c member => Numeral.isDigit_of_mem_ofScaled member, ?_⟩
      rw [Numeral.value_ofScaled]
      exact roundsTo_of_admits zero made (Interval.admits_shortest (admits_mid zero made))

theorem digits_chars {c : Char} (member : c ∈ x.digits) : c.isDigit = true ∨ c = '.' := by
  obtain ⟨numeral, written, digits, -⟩ := exists_numeral x
  rw [written] at member
  rcases Style.mem_writePositional member with digit | rfl | point
  · exact .inl (digits c digit)
  · exact .inl rfl
  · exact .inr point

/-- The digits of a number read back as a decimal to which it is the nearest. -/
theorem roundsTo_digits (x : Binary64) : RoundsTo (readPositional x.digits) x.rank := by
  obtain ⟨numeral, written, digits, rounds⟩ := exists_numeral x
  have plain : '.' ∉ numeral.digits := fun member => absurd (digits '.' member) (by decide)
  rwa [written, Style.readPositional_writePositional rfl plain]

/-- The number, with one payload for all that are none. -/
def canonical (x : Binary64) : Binary64 :=
  if x.isNaN then nan else x

/-- The text of a number without its sign. -/
def unsignedText (x : Binary64) : List Char :=
  if x.isNaN then "NaN".toList else if x.isFinite then x.digits else "inf".toList

theorem toList_toText (x : Binary64) : x.toText.toList =
    if x.canonical.negative then '-' :: x.unsignedText else x.unsignedText := by
  rw [toText, write, unsignedText, canonical]
  cases x.isNaN with
  | true => rfl
  | false =>
    simp only [Bool.false_eq_true, if_false, String.toList_ofList]
    cases x.isFinite <;> rfl

theorem digits_ne {c : Char} {rest : List Char} (letter : c.isDigit = false) (apart : c ≠ '.') :
    x.digits ≠ c :: rest := by
  intro same
  rcases digits_chars (same ▸ List.mem_cons_self : c ∈ x.digits) with digit | point
  · exact Bool.false_ne_true (letter.symm.trans digit)
  · exact apart point

/-- What is no number, infinity, and the finite numbers. -/
theorem unsignedText_cases (x : Binary64) :
    x.canonical = nan ∧ x.unsignedText = ['N', 'a', 'N'] ∨
      x.canonical = x ∧ x.rank = infinityRank ∧ x.unsignedText = ['i', 'n', 'f'] ∨
        x.canonical = x ∧ x.rank < infinityRank ∧ x.unsignedText = x.digits := by
  rw [canonical, unsignedText]
  cases proper : x.isNaN with
  | true => exact .inl ⟨rfl, rfl⟩
  | false =>
    have bound : ¬ infinityRank < x.rank := of_decide_eq_false proper
    cases bounded : x.isFinite with
    | true => exact .inr (.inr ⟨rfl, of_decide_eq_true bounded, rfl⟩)
    | false =>
      have least : ¬ x.rank < infinityRank := of_decide_eq_false bounded
      exact .inr (.inl ⟨rfl, by omega, rfl⟩)

/-- The characters in texts of numbers. -/
def isTextChar (c : Char) : Bool :=
  c.isDigit || ['-', '.', 'N', 'a', 'i', 'n', 'f'].contains c

theorem unsignedText_chars {c : Char} (member : c ∈ x.unsignedText) :
    isTextChar c = true ∧ c ≠ '-' := by
  have all : x.unsignedText.all (fun c => isTextChar c && c != '-') = true := by
    rcases unsignedText_cases x with ⟨_, text⟩ | ⟨_, _, text⟩ | ⟨_, _, text⟩
    · rw [text]
      rfl
    · rw [text]
      rfl
    · rw [text, List.all_eq_true]
      intro c member
      rcases digits_chars member with digit | rfl
      · have positive : c ≠ '-' := by
          rintro rfl
          cases digit
        simp [isTextChar, digit, positive]
      · rfl
  simpa using List.all_eq_true.mp all c member

/-- Without any digit, zero would be read, which has one. -/
theorem digits_ne_nil (finite : x.rank < infinityRank) : x.digits ≠ [] := by
  intro none
  have rounds := roundsTo_digits x
  have reads : readPositional [] = magnitude 0 := by
    rw [magnitude_zero]
    exact zero_div _
  rw [none, reads] at rounds
  have zero : x.rank = 0 := rounds.unique finite (by decide) (RoundsTo.of_magnitude 0)
  rw [digits, if_pos zero] at none
  cases none

theorem unsignedText_ne_nil (x : Binary64) : x.unsignedText ≠ [] := by
  rcases unsignedText_cases x with ⟨_, text⟩ | ⟨_, _, text⟩ | ⟨_, finite, text⟩
  · rw [text]
    exact List.cons_ne_nil _ _
  · rw [text]
    exact List.cons_ne_nil _ _
  · rw [text]
    exact digits_ne_nil finite

theorem unsignedText_inj (same : x.unsignedText = y.unsignedText) :
    x.canonical.rank = y.canonical.rank := by
  rcases unsignedText_cases x with ⟨nan, text⟩ | ⟨proper, infinite, text⟩ | ⟨proper, finite, text⟩
  · rw [text] at same
    rcases unsignedText_cases y with ⟨nanToo, _⟩ | ⟨_, _, other⟩ | ⟨_, _, other⟩
    · rw [nan, nanToo]
    · cases same.trans other
    · exact absurd (same.trans other).symm (digits_ne (by decide) (by decide))
  · rw [text] at same
    rcases unsignedText_cases y with ⟨_, other⟩ | ⟨properToo, infiniteToo, _⟩ | ⟨_, _, other⟩
    · cases same.trans other
    · rw [proper, properToo, infinite, infiniteToo]
    · exact absurd (same.trans other).symm (digits_ne (by decide) (by decide))
  · rw [text] at same
    rcases unsignedText_cases y with ⟨_, other⟩ | ⟨_, _, other⟩ | ⟨properToo, finiteToo, other⟩
    · exact absurd (same.trans other) (digits_ne (by decide) (by decide))
    · exact absurd (same.trans other) (digits_ne (by decide) (by decide))
    · have rounds := roundsTo_digits x
      rw [same.trans other] at rounds
      rw [proper, properToo]
      exact rounds.unique finite finiteToo (roundsTo_digits y)

theorem unsignedText_ne (rest : List Char) : x.unsignedText ≠ '-' :: rest := by
  intro same
  exact (unsignedText_chars (same ▸ List.mem_cons_self : '-' ∈ x.unsignedText)).2 rfl

theorem toText_canonical (x : Binary64) : x.canonical.toText = x.toText := by
  cases proper : x.isNaN with
  | true =>
    have whole : x.canonical = nan := if_pos proper
    rw [whole, toText, toText, write, write, proper]
    rfl
  | false =>
    have whole : x.canonical = x := if_neg (Bool.eq_false_iff.mp proper)
    rw [whole]

/-- The text of a number shows the number, up to which of those that are none it is. -/
theorem toText_inj : x.toText = y.toText ↔ x.canonical = y.canonical := by
  constructor
  · intro same
    rw [← String.toList_inj, toList_toText, toList_toText] at same
    have signs : x.canonical.negative = y.canonical.negative := by
      cases sign : x.canonical.negative <;> cases signToo : y.canonical.negative <;>
        simp [sign, signToo, unsignedText_ne, (unsignedText_ne _).symm] at same ⊢
    have magnitudes : x.unsignedText = y.unsignedText := by
      rw [signs] at same
      cases sign : y.canonical.negative <;> simpa [sign] using same
    have ranks := unsignedText_inj magnitudes
    generalize x.canonical = first at signs ranks
    generalize y.canonical = second at signs ranks
    cases first
    cases second
    cases signs
    cases ranks
    rfl
  · intro same
    rw [← toText_canonical x, same, toText_canonical]

end Binary64

end Conform
