import Conform.Proofs.Member
import Mathlib.Data.List.Basic

/-!
Names of positions: of all the ways to write a number only the plain numeral names a position, and
it does so as long as the number fits into 64 bits.
-/

namespace Conform

namespace Text

section

variable {digits : List Char} {c : Char} {start n : Nat}

theorem digit_lt_ten (digit : c.isDigit = true) : c.toNat - '0'.toNat < 10 := by
  obtain ⟨_, most⟩ := Char.isDigit_iff_toNat.mp digit
  change c.toNat ≤ 57 at most
  change c.toNat - 48 < 10
  omega

theorem toDigits_digit (digit : c.isDigit = true) :
    Nat.toDigits 10 (c.toNat - '0'.toNat) = [c] := by
  have small := digit_lt_ten digit
  obtain ⟨least, _⟩ := Char.isDigit_iff_toNat.mp digit
  rw [Nat.toDigits_of_lt_base small, List.cons.injEq]
  refine ⟨Char.toNat_inj.mp ?_, rfl⟩
  rw [Nat.toNat_digitChar_of_lt_ten small]
  exact Nat.add_sub_cancel' least

/-- Digits behind a number go on with its numeral, unless there is only a zero before them. -/
theorem toDigits_ofDigitChars (decimal : ∀ c ∈ digits, c.isDigit = true) (positive : 0 < start) :
    Nat.toDigits 10 (Nat.ofDigitChars 10 digits start) = Nat.toDigits 10 start ++ digits := by
  induction digits generalizing start with
  | nil => rw [Nat.ofDigitChars_nil, List.append_nil]
  | cons c digits ih =>
    have digit : c.isDigit = true := decimal c List.mem_cons_self
    rw [Nat.ofDigitChars_cons,
      ih (fun other later => decimal other (List.mem_cons_of_mem _ later)) (by omega),
      ← Nat.toDigits_append_toDigits (by decide) positive (digit_lt_ten digit),
      toDigits_digit digit, List.append_assoc, List.singleton_append]

/-- A numeral without zeros in front is the numeral of its number. -/
theorem toDigits_ofDigitChars_cons (decimal : ∀ d ∈ c :: digits, d.isDigit = true)
    (plain : c = '0' → digits = []) :
    Nat.toDigits 10 (Nat.ofDigitChars 10 (c :: digits) 0) = c :: digits := by
  have digit : c.isDigit = true := decimal c List.mem_cons_self
  by_cases zero : c = '0'
  · rw [plain zero, zero]
    rfl
  · have positive : 0 < c.toNat - '0'.toNat := by
      obtain ⟨least, _⟩ := Char.isDigit_iff_toNat.mp digit
      have other : c.toNat ≠ '0'.toNat := fun same => zero (Char.toNat_inj.mp same)
      omega
    rw [Nat.ofDigitChars_cons, Nat.mul_zero, Nat.zero_add,
      toDigits_ofDigitChars (fun d later => decimal d (List.mem_cons_of_mem _ later)) positive,
      toDigits_digit digit, List.singleton_append]

/-- Only the numeral of zero begins with a zero. -/
theorem head?_toDigits (positive : 0 < n) : (Nat.toDigits 10 n).head? ≠ some '0' := by
  have digits : ∀ n < 10, 0 < n → Nat.digitChar n ≠ '0' := by decide
  induction n using Nat.base_induction 10 (by decide) with
  | single n small =>
    rw [Nat.toDigits_of_lt_base small, List.head?_cons]
    exact fun same => digits n small positive (Option.some.inj same)
  | digit n digit small leading ih =>
    rw [← Nat.toDigits_append_toDigits (by decide) leading small,
      List.head?_append_of_ne_nil _ Nat.toDigits_ne_nil]
    exact ih leading

theorem le_ofDigitChars (digits : List Char) (start : Nat) :
    start ≤ Nat.ofDigitChars 10 digits start := by
  induction digits generalizing start with
  | nil => exact Nat.le_refl start
  | cons c digits ih =>
    rw [Nat.ofDigitChars_cons]
    exact Nat.le_trans (by omega) (ih _)

end

/-- A count of 64 bits with one more digit; absent where there is no digit, or no room for it. -/
def appendDigit? (count : UInt64) (c : Char) : Option UInt64 :=
  let next := 10 * count.toNat + (c.toNat - '0'.toNat)
  if c.isDigit ∧ next < UInt64.size then some (UInt64.ofNat next) else none

def scanDigits? (digits : List Char) : Option UInt64 :=
  if digits.isEmpty then none else digits.foldlM appendDigit? 0

/-- Reads a count as it is commonly written, digit by digit. A plus sign may stand in front, and so
may zeros. -/
def scanCount? (text : List Char) : Option UInt64 :=
  scanDigits? (if text.head? = some '+' then text.tail else text)

section

variable {digits text : List Char} {start count : UInt64}

/-- Digits are read to their value if it fits: a number that has grown too large stays too large,
whatever digits follow. -/
theorem foldlM_appendDigit?_iff :
    digits.foldlM appendDigit? start = some count ↔
      (∀ c ∈ digits, c.isDigit = true) ∧
        Nat.ofDigitChars 10 digits start.toNat = count.toNat := by
  induction digits generalizing start with
  | nil => simp [UInt64.toNat_inj]
  | cons c digits ih =>
    rw [List.foldlM_cons, Nat.ofDigitChars_cons, List.forall_mem_cons, appendDigit?]
    by_cases fits : c.isDigit = true ∧
        10 * start.toNat + (c.toNat - '0'.toNat) < UInt64.size
    · have same : (UInt64.ofNat (10 * start.toNat + (c.toNat - '0'.toNat))).toNat =
          10 * start.toNat + (c.toNat - '0'.toNat) := UInt64.toNat_ofNat_of_lt fits.2
      simp only [fits, and_self, if_true, Option.bind_eq_bind, Option.bind_some, true_and]
      rw [ih, same]
    · rw [if_neg fits]
      simp only [Option.bind_eq_bind, Option.bind_none, reduceCtorEq, false_iff, not_and]
      intro decimal value
      have least := le_ofDigitChars digits (10 * start.toNat + (c.toNat - '0'.toNat))
      have room := count.toNat_lt_size
      exact fits ⟨decimal.1, by omega⟩

theorem scanDigits?_eq_some_iff :
    scanDigits? digits = some count ↔
      digits ≠ [] ∧ (∀ c ∈ digits, c.isDigit = true) ∧
        Nat.ofDigitChars 10 digits 0 = count.toNat := by
  rw [scanDigits?]
  cases digits with
  | nil => simp
  | cons c digits =>
    rw [List.isEmpty_cons, if_neg Bool.false_ne_true, foldlM_appendDigit?_iff]
    exact (and_iff_right (List.cons_ne_nil c digits)).symm

/-- Every spelling of a count is read, and nothing else is. -/
theorem scanCount?_eq_some_iff :
    scanCount? text = some count ↔
      ∃ digits, (text = digits ∨ text = '+' :: digits) ∧ digits ≠ [] ∧
        (∀ c ∈ digits, c.isDigit = true) ∧ Nat.ofDigitChars 10 digits 0 = count.toNat := by
  rw [scanCount?, scanDigits?_eq_some_iff]
  constructor
  · intro number
    split at number
    · rename_i signed
      obtain ⟨rest, rfl⟩ := List.head?_eq_some_iff.mp signed
      exact ⟨rest, .inr rfl, number⟩
    · exact ⟨text, .inl rfl, number⟩
  · rintro ⟨digits, rfl | rfl, number⟩
    · have unsigned : text.head? ≠ some '+' := by
        intro signed
        exact absurd (number.2.1 '+' (List.mem_of_head? signed)) (by decide)
      rwa [if_neg unsigned]
    · exact number

theorem scanCount?_toDigits (count : UInt64) :
    scanCount? (Nat.toDigits 10 count.toNat) = some count :=
  scanCount?_eq_some_iff.mpr ⟨_, .inl rfl, Nat.toDigits_ne_nil, isDigit_toDigits _,
    Nat.ofDigitChars_ten_toDigits⟩

end

end Text

/-- What keeps a name from being the numeral of a position: signs, other characters, zeros in front,
and numbers that need more than 64 bits. -/
inductive NoNumeral (name : String) : Prop where
  | empty (nothing : name = "")
  | signed {sign : Char} {rest : List Char} (spelled : name.toList = sign :: rest)
      (either : sign = '+' ∨ sign = '-')
  | stray {c : Char} (inside : c ∈ name.toList) (other : c.isDigit = false)
  | padded {rest : List Char} (spelled : name.toList = '0' :: rest) (more : rest ≠ [])
  | large (decimal : ∀ c ∈ name.toList, c.isDigit = true)
      (big : UInt64.size ≤ Nat.ofDigitChars 10 name.toList 0)

section

variable {name : String} {n : Nat}

theorem position?_eq_some_iff : position? name = some n ↔ n < UInt64.size ∧ toString n = name := by
  constructor
  · intro found
    obtain ⟨same, narrow⟩ := toString_of_position? found
    exact ⟨Nat.lt_succ_of_le narrow, same⟩
  · rintro ⟨small, rfl⟩
    exact position?_toString (Nat.le_of_lt_succ small)

theorem toList_of_toString (same : toString n = name) : name.toList = Nat.toDigits 10 n := by
  rw [← same, Nat.toString_eq_repr, Nat.toList_repr]

theorem NoNumeral.toString_ne (unfit : NoNumeral name) (small : n < UInt64.size) :
    toString n ≠ name := by
  intro same
  have spelling := toList_of_toString same
  have decimal : ∀ c ∈ name.toList, c.isDigit = true := spelling ▸ Text.isDigit_toDigits n
  have number : Nat.ofDigitChars 10 name.toList 0 = n := by
    rw [spelling, Nat.ofDigitChars_ten_toDigits]
  cases unfit with
  | empty nothing =>
    rw [nothing] at spelling
    exact Nat.toDigits_ne_nil spelling.symm
  | signed spelled either =>
    have digit := decimal _ (spelled ▸ List.mem_cons_self)
    rcases either with rfl | rfl <;> exact absurd digit (by decide)
  | stray inside other =>
    rw [decimal _ inside] at other
    cases other
  | padded spelled more =>
    rw [spelled] at spelling
    cases n with
    | zero => exact more (List.cons.inj spelling).2
    | succ n => exact Text.head?_toDigits n.succ_pos (spelling ▸ rfl)
  | large _ big => omega

theorem position?_eq_none_iff : position? name = none ↔ NoNumeral name := by
  constructor
  · intro missing
    by_contra fit
    have decimal : ∀ c ∈ name.toList, c.isDigit = true := by
      intro c inside
      by_contra other
      exact fit (.stray inside (Bool.eq_false_iff.mpr other))
    have small : Nat.ofDigitChars 10 name.toList 0 < UInt64.size :=
      Nat.lt_of_not_le fun big => fit (.large decimal big)
    have canonical : Nat.toDigits 10 (Nat.ofDigitChars 10 name.toList 0) = name.toList := by
      cases spelled : name.toList with
      | nil => exact absurd (.empty (String.toList_eq_nil_iff.mp spelled)) fit
      | cons c rest =>
        refine Text.toDigits_ofDigitChars_cons (spelled ▸ decimal) ?_
        rintro rfl
        by_contra more
        exact fit (.padded spelled more)
    have same : toString (Nat.ofDigitChars 10 name.toList 0) = name := by
      rw [← String.toList_inj, Nat.toString_eq_repr, Nat.toList_repr, canonical]
    rw [position?_eq_some_iff.mpr ⟨small, same⟩] at missing
    cases missing
  · intro unfit
    cases found : position? name with
    | none => rfl
    | some n =>
      obtain ⟨small, same⟩ := position?_eq_some_iff.mp found
      exact absurd same (unfit.toString_ne small)

/-- The signs and zeros that a reader lets pass are refused when the count is written again. -/
theorem position?_eq_filter_scan (name : String) :
    position? name =
      ((Text.scanCount? name.toList).map UInt64.toNat).filter (toString · = name) := by
  ext n
  rw [position?_eq_some_iff, Option.filter_eq_some_iff, Option.map_eq_some_iff, decide_eq_true_iff]
  refine and_congr_left fun same => ?_
  constructor
  · intro small
    have same_count : (UInt64.ofNat n).toNat = n := UInt64.toNat_ofNat_of_lt small
    refine ⟨UInt64.ofNat n, ?_, same_count⟩
    rw [toList_of_toString same, ← Text.scanCount?_toDigits, same_count]
  · rintro ⟨count, _, rfl⟩
    exact count.toNat_lt_size

/-- A name stands for a position exactly as the numeral of a number of 64 bits. Other spellings that
a reader would take for a number stand for none, and no two names lead to the same item. -/
theorem position?_canonical (name : String) :
    (∀ n, position? name = some n ↔ n < UInt64.size ∧ toString n = name) ∧
    (position? name = none ↔ NoNumeral name) ∧
    position? name =
      ((Text.scanCount? name.toList).map UInt64.toNat).filter (toString · = name) ∧
    (∀ other n, position? name = some n → position? other = some n → name = other) ∧
    ∀ (items : List Value) (other : String) (part counterpart : Value),
      (Value.list items).member? name = some part →
      (Value.list items).member? other = some counterpart →
      (Value.list items).segment name = (Value.list items).segment other → name = other := by
  refine ⟨fun n => position?_eq_some_iff, position?_eq_none_iff, position?_eq_filter_scan name,
    ?_, ?_⟩
  · intro other n found foundToo
    exact (position?_eq_some_iff.mp found).2.symm.trans (position?_eq_some_iff.mp foundToo).2
  · intro items other part counterpart found foundToo sameStep
    obtain ⟨_, same, step, _⟩ := (Value.hasMember_of_member? found).exists_position
    obtain ⟨_, sameToo, stepToo, _⟩ := (Value.hasMember_of_member? foundToo).exists_position
    cases step.symm.trans (sameStep.trans stepToo)
    exact same.symm.trans sameToo

/-- The least and the greatest position, and what is nearly one; a sign and zeros in front are read,
but make no name of a position. -/
theorem position?_canonical_spellings :
    position? "0" = some 0 ∧
    position? "18446744073709551615" = some 18446744073709551615 ∧
    (∀ name ∈ ["", "+1", "-0", "007", "１", "18446744073709551616"], position? name = none) ∧
    Text.scanCount? "+007".toList = some 7 ∧
    (position? "10" = some 10 ∧ position? (toString 10) = some 10 ∧ "10" = toString 10) ∧
    ((Value.list [.null, .ofInt 5]).member? "1" = some (.ofInt 5) ∧
      (Value.list [.null, .ofInt 5]).member? (toString 1) = some (.ofInt 5) ∧
      (Value.list [.null, .ofInt 5]).segment "1" =
        (Value.list [.null, .ofInt 5]).segment (toString 1) ∧ "1" = toString 1) := by
  refine ⟨((position?_canonical "0").1 0).mpr ⟨by decide, by decide⟩,
    ((position?_canonical "18446744073709551615").1 _).mpr ⟨by decide, by decide⟩, ?_, by decide,
    ⟨by decide, by decide, (position?_canonical "10").2.2.2.1 _ 10 (by decide) (by decide)⟩,
    rfl, rfl, rfl, (position?_canonical "1").2.2.2.2 [.null, .ofInt 5] _ _ _ rfl rfl rfl⟩
  simp only [List.forall_mem_cons, List.not_mem_nil, false_imp_iff, implies_true, and_true]
  exact ⟨(position?_canonical "").2.1.mpr (.empty rfl),
    (position?_canonical "+1").2.1.mpr (.signed rfl (.inl rfl)),
    (position?_canonical "-0").2.1.mpr (.signed rfl (.inr rfl)),
    (position?_canonical "007").2.1.mpr (.padded rfl (by decide)),
    (position?_canonical "１").2.1.mpr (.stray (.head _) rfl),
    (position?_canonical "18446744073709551616").2.1.mpr
      (.large (List.all_eq_true.mp rfl) (by decide))⟩

end

end Conform
