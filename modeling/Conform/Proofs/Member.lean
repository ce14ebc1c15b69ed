import Conform.Path

/-!
Members of values: which parts a name stands for, and by which step they are reached.
-/

namespace Conform

namespace Text

private theorem readDecimal?_fold {digits : List Char}
    (decimal : ∀ c ∈ digits, c.isDigit = true) (start : Nat) :
    digits.foldl (fun number c => do
      let n ← number
      if c.isDigit then some (10 * n + (c.toNat - '0'.toNat)) else none) (some start) =
      some (Nat.ofDigitChars 10 digits start) := by
  induction digits generalizing start with
  | nil => rfl
  | cons c digits ih =>
    have digit : c.isDigit = true := decimal c List.mem_cons_self
    rw [List.foldl_cons, Nat.ofDigitChars_cons]
    simp only [Option.bind_eq_bind, Option.bind_some, digit, if_true]
    exact ih (fun other later => decimal other (List.mem_cons_of_mem _ later)) _

theorem isDigit_toDigits (n : Nat) : ∀ c ∈ Nat.toDigits 10 n, c.isDigit = true :=
  fun _ member => Nat.isDigit_of_mem_toDigits (by decide) (by decide) member

theorem readDecimal?_toDigits (n : Nat) : readDecimal? (Nat.toDigits 10 n) = some n := by
  rw [readDecimal?, if_neg (by simp), readDecimal?_fold (isDigit_toDigits n),
    Nat.ofDigitChars_ten_toDigits]

end Text

theorem position?_toString {position : Nat} (narrow : position ≤ 0xffffffffffffffff) :
    position? (toString position) = some position := by
  have read : Text.readCount? (toString position).toList = some position := by
    rw [Nat.toString_eq_repr, Nat.toList_repr, Text.readCount?, Text.readDecimal?_toDigits]
    simpa using narrow
  rw [position?, read]
  simp

theorem toString_of_position? {name : String} {position : Nat}
    (found : position? name = some position) :
    toString position = name ∧ position ≤ 0xffffffffffffffff := by
  obtain ⟨read, canonical⟩ := Option.filter_eq_some_iff.mp found
  obtain ⟨_, narrow⟩ := Option.filter_eq_some_iff.mp read
  exact ⟨by simpa using canonical, by simpa using narrow⟩

namespace Value

/-- A part that a name stands for, with the step to it: an item under the numeral of its position,
or a field, which keeps its name even where that is a numeral. -/
inductive HasMember : Value → String → Segment → Value → Prop where
  | item {items : List Value} {position : Nat} {part : Value}
      (narrow : position ≤ 0xffffffffffffffff) (found : items[position]? = some part) :
      HasMember (.list items) (toString position) (.index position) part
  | field {fields : Fields Value none} {name : String} {part : Value}
      (found : fields.find? name = some part) :
      HasMember (.record fields) name (.field name) part

variable {value part : Value} {name : String} {segment : Segment}

theorem segment_list {items : List Value} {position : Nat} (read : position? name = some position) :
    (list items).segment name = .index position := by
  simp [Value.segment, read]

theorem HasMember.member?_eq (member : value.HasMember name segment part) :
    value.member? name = some part ∧ value.segment name = segment := by
  cases member with
  | item narrow found =>
    have read := position?_toString narrow
    exact ⟨by rw [member?, read]; exact found, segment_list read⟩
  | field found => exact ⟨found, rfl⟩

theorem hasMember_of_member? (found : value.member? name = some part) :
    value.HasMember name (value.segment name) part := by
  cases value with
  | scalar value => cases found
  | list items =>
    obtain ⟨position, read, there⟩ := Option.bind_eq_some_iff.mp found
    obtain ⟨rfl, narrow⟩ := toString_of_position? read
    rw [segment_list read]
    exact .item narrow there
  | record fields => exact .field found

theorem member?_eq_none_iff :
    value.member? name = none ↔ ∀ segment part, ¬ value.HasMember name segment part := by
  constructor
  · intro absent segment part member
    rw [member.member?_eq.1] at absent
    cases absent
  · intro absent
    cases found : value.member? name with
    | none => rfl
    | some part => exact absurd (hasMember_of_member? found) (absent _ part)

theorem HasMember.exists_position {items : List Value}
    (member : (list items).HasMember name segment part) :
    ∃ position : Nat, toString position = name ∧ segment = .index position ∧
      items[position]? = some part := by
  cases member with
  | item narrow found => exact ⟨_, rfl, rfl, found⟩

theorem HasMember.unique {other : Segment} {another : Value}
    (first : value.HasMember name segment part) (second : value.HasMember name other another) :
    segment = other ∧ part = another := by
  obtain ⟨found, step⟩ := first.member?_eq
  obtain ⟨again, same⟩ := second.member?_eq
  exact ⟨step.symm.trans same, Option.some.inj (found.symm.trans again)⟩

theorem HasMember.step?_eq (member : value.HasMember name segment part) :
    value.step? segment = some part := by
  cases member with
  | item narrow found => exact found
  | field found => exact found

end Value

end Conform
