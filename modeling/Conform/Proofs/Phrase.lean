import Conform.Pattern.Phrase
import Conform.Proofs.Acceptance
import Mathlib.Data.List.Forall2

/-!
Written patterns. Braces declare the pairs in them, all of them and in their order; whole numbers
are read when they fit 32 bits; and every pattern can be written.
-/

namespace Conform

namespace Binary64

theorem isFinite_opposite (x : Binary64) : x.opposite.isFinite = x.isFinite := rfl

theorem opposite_opposite (x : Binary64) : x.opposite.opposite = x := by
  simp [opposite]

end Binary64

namespace Phrase

/-- Phrases declare pairs of a key and a phrase for its pattern. After the last pair there may be a
comma. -/
inductive Declares : List Phrase → List (Phrase × Phrase) → Prop where
  | nothing : Declares [] []
  | last (key value : Phrase) : Declares [key, .colon, value] [(key, value)]
  | before (key value : Phrase) {rest : List Phrase} {pairs : List (Phrase × Phrase)}
      (others : Declares rest pairs) :
      Declares (key :: .colon :: value :: .comma :: rest) ((key, value) :: pairs)

/-- A field is what a pair of phrases stands for. -/
structure Declared (host : List Phrase → Option Pattern) (pair : Phrase × Phrase)
    (entry : String × Pattern) : Prop where
  name : pair.1.name? = some entry.1
  field : pair.2.pattern? host = some entry.2

section

variable {host : List Phrase → Option Pattern} {phrases : List Phrase}
  {pairs : List (Phrase × Phrase)} {fields : List (String × Pattern)} {pattern : Pattern}

theorem areDeclarations_iff :
    areDeclarations phrases = true ↔ ∃ pairs, Declares phrases pairs := by
  constructor
  · intro shaped
    fun_induction areDeclarations phrases with
    | case1 => exact ⟨[], .nothing⟩
    | case2 key value => exact ⟨[(key, value)], .last key value⟩
    | case3 key value rest ih =>
      obtain ⟨pairs, others⟩ := ih shaped
      exact ⟨(key, value) :: pairs, .before key value others⟩
    | case4 => cases shaped
  · intro declared
    obtain ⟨pairs, declares⟩ := declared
    induction declares with
    | nothing => rfl
    | last key value => rfl
    | before key value others ih => exact ih

/-- What follows a pair is read with the field that the pair stands for. -/
theorem bind_pair_eq_some_iff {α : Type} {key value : Phrase} {next : String → Pattern → Option α}
    {result : α} :
    (key.name?.bind fun name => (value.pattern? host).bind (next name)) = some result ↔
      ∃ entry, Declared host (key, value) entry ∧ next entry.1 entry.2 = some result := by
  constructor
  · intro read
    obtain ⟨name, named, read⟩ := Option.bind_eq_some_iff.mp read
    obtain ⟨field, meant, read⟩ := Option.bind_eq_some_iff.mp read
    exact ⟨(name, field), ⟨named, meant⟩, read⟩
  · rintro ⟨entry, declared, read⟩
    exact Option.bind_eq_some_iff.mpr ⟨entry.1, declared.name,
      Option.bind_eq_some_iff.mpr ⟨entry.2, declared.field, read⟩⟩

/-- The fields that are read are those of the pairs, one by one. -/
theorem fieldsOf?_eq_some_iff (declares : Declares phrases pairs) :
    fieldsOf? host phrases = some fields ↔ List.Forall₂ (Declared host) pairs fields := by
  induction declares generalizing fields with
  | nothing => rw [fieldsOf?, Option.some_inj, List.forall₂_nil_left_iff, eq_comm]
  | last key value =>
    rw [List.forall₂_cons_left_iff]
    refine bind_pair_eq_some_iff.trans (exists_congr fun entry => ?_)
    simp [eq_comm]
  | before key value others ih =>
    rw [List.forall₂_cons_left_iff]
    refine bind_pair_eq_some_iff.trans ?_
    constructor
    · rintro ⟨entry, declared, read⟩
      obtain ⟨rest, later, same⟩ := Option.bind_eq_some_iff.mp read
      exact ⟨entry, rest, declared, ih.mp later, (Option.some.inj same).symm⟩
    · rintro ⟨entry, rest, declared, later, rfl⟩
      exact ⟨entry, declared, Option.bind_eq_some_iff.mpr ⟨rest, ih.mpr later, rfl⟩⟩

/-- Braces around declarations stand for the object that declares every pair in its turn. A name
that is written several times is declared several times. -/
theorem pattern?_braces_iff (declares : Declares phrases pairs) :
    (braces phrases).pattern? host = some pattern ↔
      ∃ fields, List.Forall₂ (Declared host) pairs fields ∧ pattern = .object fields := by
  rw [pattern?, if_pos (areDeclarations_iff.mpr ⟨pairs, declares⟩), Option.map_eq_some_iff]
  refine exists_congr fun fields => ?_
  rw [fieldsOf?_eq_some_iff declares, eq_comm (a := Pattern.object fields)]

/-- Both declarations of a name are kept. -/
example : (braces [.word "a", .colon, .word "Number", .comma, .word "a", .colon,
    .word "String"]).pattern? host = some (.object [("a", .anyNumber), ("a", .anyString)]) := rfl

/-- A value fits a pair when it has a part of the name that is written, and the pattern written for
it accepts the part. -/
def Fits (host : List Phrase → Option Pattern) (value : Value) (pair : Phrase × Phrase) : Prop :=
  ∃ name field part, pair.1.name? = some name ∧ pair.2.pattern? host = some field ∧
    value.member? name = some part ∧ field.accepts part = true

theorem Declared.fits_iff {value : Value} {pair : Phrase × Phrase} {entry : String × Pattern}
    (declared : Declared host pair entry) :
    Fits host value pair ↔ entry.2.isUndefined = false ∧
      ∃ part, value.member? entry.1 = some part ∧ entry.2.accepts part = true := by
  constructor
  · rintro ⟨_, _, part, named, meant, found, accepted⟩
    cases declared.name.symm.trans named
    cases declared.field.symm.trans meant
    refine ⟨Pattern.isUndefined_eq_false_iff.mpr fun undefined => ?_, part, found, accepted⟩
    rw [undefined] at accepted
    cases accepted
  · rintro ⟨_, part, found, accepted⟩
    exact ⟨entry.1, entry.2, part, declared.name, declared.field, found, accepted⟩

theorem forall_fits_iff {value : Value} (declared : List.Forall₂ (Declared host) pairs fields) :
    (∀ pair ∈ pairs, Fits host value pair) ↔
      ∀ name field, (name, field) ∈ fields → field.isUndefined = false ∧
        ∃ part, value.member? name = some part ∧ field.accepts part = true := by
  induction declared with
  | nil => simp
  | cons own others ih =>
    rw [List.forall_mem_cons, own.fits_iff, Pattern.forall_field_cons, ih]

/-- A value fits written braces when it has parts and fits every pair. Where a name is written
several times, the part of that name has to fit all that is written for it. -/
theorem accepts_braces_iff {value : Value} (declares : Declares phrases pairs)
    (read : (braces phrases).pattern? host = some pattern) :
    pattern.accepts value = true ↔
      value.isPrimitive = false ∧ ∀ pair ∈ pairs, Fits host value pair := by
  obtain ⟨fields, declared, rfl⟩ := (pattern?_braces_iff declares).mp read
  rw [Pattern.accepts_object_iff, forall_fits_iff declared]

end

/-- A whole number as it is written, in parentheses if it has a sign. -/
def whole (n : Int) : Phrase :=
  if n < 0 then .parens [.minus, .integer n.natAbs] else .integer n.natAbs

/-- A whole number is read when it fits 32 bits with a sign, and refused when it does not. -/
theorem pattern?_whole_iff {host : List Phrase → Option Pattern} {n : Int} {pattern : Pattern} :
    (whole n).pattern? host = some pattern ↔
      -0x80000000 ≤ n ∧ n < 0x80000000 ∧ pattern = .ofInt n := by
  rw [whole]
  split
  · rename_i negative
    have same : -(n.natAbs : Int) = n := by omega
    rw [pattern?, patternOf?, same, Option.ite_none_right_eq_some, Option.some_inj,
      eq_comm (a := Pattern.ofInt n), ← and_assoc]
    exact and_congr_left fun _ => by omega
  · rename_i positive
    have same : (n.natAbs : Int) = n := by omega
    rw [pattern?, same, Option.ite_none_right_eq_some, Option.some_inj,
      eq_comm (a := Pattern.ofInt n), ← and_assoc]
    exact and_congr_left fun _ => by omega

/-- Phrases by which a program calls the numbers that no decimal is written for. -/
structure Constants (host : List Phrase → Option Pattern) where
  phrase : Binary64 → Phrase
  meant : ∀ x, x.isFinite = false → (phrase x).pattern? host = some (.number x)

/-- A program that makes numbers of their bits calls every number. -/
example : Constants fun
    | [.word "bits", .parens [.integer n]] => some (.number (.ofBits (.ofNat n)))
    | _ => none where
  phrase x := .parens [.word "bits", .parens [.integer x.toBits.toNat]]
  meant x _ := by simp [pattern?, patternOf?, Binary64.ofBits_toBits]

namespace Constants

variable {host : List Phrase → Option Pattern} (constants : Constants host)

/-- A number as it is written, in parentheses if it has a sign. -/
def number (x : Binary64) : Phrase :=
  if x.isFinite then
    if x.negative then .parens [.minus, .decimal x.opposite] else .decimal x
  else constants.phrase x

def scalar : Scalar → Phrase
  | .null => .word "null"
  | .boolean true => .word "true"
  | .boolean false => .word "false"
  | .number x => constants.number x
  | .string content => .text content

mutual

/-- A pattern as it is written. -/
def pattern : Pattern → Phrase
  | .anyString => .word "String"
  | .anyNumber => .word "Number"
  | .anyBoolean => .word "Boolean"
  | .literal value => constants.scalar value
  | .sequence element => .brackets [pattern element]
  | .object fields => .braces (declarations fields)
  | .undefined => .word "undefined"

def declarations : List (String × Pattern) → List Phrase
  | [] => []
  | (name, field) :: fields =>
    .text name :: .colon :: pattern field :: .comma :: declarations fields

end

theorem declares_declarations (fields : List (String × Pattern)) :
    Declares (constants.declarations fields)
      (fields.map fun entry => (.text entry.1, constants.pattern entry.2)) := by
  induction fields with
  | nil => exact .nothing
  | cons entry fields ih => exact .before _ _ ih

theorem pattern?_number (x : Binary64) :
    (constants.number x).pattern? host = some (.number x) := by
  rw [number]
  split
  · rename_i finite
    split
    · rw [pattern?, patternOf?, Binary64.isFinite_opposite, if_pos finite,
        Binary64.opposite_opposite]
    · rw [pattern?, if_pos finite]
  · rename_i infinite
    exact constants.meant x ((Bool.not_eq_true _).mp infinite)

/-- Every pattern is read back from what is written for it, in every program that can call the
numbers that are not finite. -/
theorem pattern?_pattern (pattern : Pattern) :
    (constants.pattern pattern).pattern? host = some pattern := by
  induction pattern with
  | anyString => rfl
  | anyNumber => rfl
  | anyBoolean => rfl
  | undefined => rfl
  | literal value =>
    cases value with
    | null => rfl
    | boolean answer => cases answer <;> rfl
    | number x => exact constants.pattern?_number x
    | string content => rfl
  | sequence element ih =>
    rw [Constants.pattern, pattern?, patternOf?, ih, Option.map_some]
  | object fields ih =>
    refine (pattern?_braces_iff (constants.declares_declarations fields)).mpr ⟨fields, ?_, rfl⟩
    rw [List.forall₂_map_left_iff, List.forall₂_same]
    intro entry declared
    exact ⟨rfl, ih entry.1 entry.2 declared⟩

end Constants

end Phrase

end Conform
