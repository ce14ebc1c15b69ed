import Conform.Value

/-!
JSON documents and their exchange with values. Values know one kind of number, documents tell
whole numbers from others. A number that stands for a whole number beyond doubt is written as
one, and what is no finite number becomes null.
-/

namespace Conform

/-- Whole numbers of documents fit 64 bits, signed or unsigned. -/
def Json.InRange (n : Int) : Prop :=
  -0x8000000000000000 ≤ n ∧ n ≤ 0xffffffffffffffff

instance (n : Int) : Decidable (Json.InRange n) :=
  inferInstanceAs (Decidable (_ ∧ _))

inductive Json.Number where
  | integer (n : Int) (inRange : Json.InRange n)
  | float (x : Binary64) (finite : x.isFinite = true)
  deriving DecidableEq

inductive Json where
  | null
  | boolean (value : Bool)
  | number (value : Json.Number)
  | string (value : String)
  | array (items : List Json)
  | object (fields : Fields Json none)

namespace Json

instance : Inhabited Json := ⟨.null⟩

namespace Number

theorem inRange_of_safe {n : Int} (safe : n.natAbs ≤ Binary64.maxSafeInteger) : InRange n := by
  unfold Binary64.maxSafeInteger at safe
  unfold InRange
  omega

/-- A double as a document number: whole if it stands for a whole number beyond doubt. -/
def ofBinary64? (x : Binary64) : Option Number :=
  if finite : x.isFinite = true then
    match whole : x.toInt? with
    | some n => some (.integer n (inRange_of_safe (Binary64.toInt?_natAbs_le whole)))
    | none => some (.float x finite)
  else none

/-- The double nearest to a document number. -/
def toBinary64 : Number → Binary64
  | .integer n _ => .ofInt n
  | .float x _ => x

end Number

def ofBinary64 (x : Binary64) : Json :=
  match Number.ofBinary64? x with
  | some image => .number image
  | none => .null

/-- A double as a number with a fraction, even where it is whole. -/
def ofFloat (x : Binary64) : Json :=
  if finite : x.isFinite = true then .number (.float x finite) else .null

/-- A whole number, if documents can hold it. -/
def ofInt? (n : Int) : Option Json :=
  if inRange : InRange n then some (.number (.integer n inRange)) else none

def ofScalar : Scalar → Json
  | .null => .null
  | .boolean value => .boolean value
  | .number value => ofBinary64 value
  | .string value => .string value

end Json

mutual

def Value.toJson : Value → Json
  | .scalar value => .ofScalar value
  | .list items => .array (Value.itemsToJson items)
  | .record fields => .object (Value.fieldsToJson fields)

def Value.itemsToJson : List Value → List Json
  | [] => []
  | item :: items => item.toJson :: Value.itemsToJson items

def Value.fieldsToJson {lower : Option String} : Fields Value lower → Fields Json lower
  | .nil => .nil
  | .cons name above value rest => .cons name above value.toJson (Value.fieldsToJson rest)

end

mutual

def Value.ofJson : Json → Value
  | .null => .scalar .null
  | .boolean value => .scalar (.boolean value)
  | .number value => .scalar (.number value.toBinary64)
  | .string value => .scalar (.string value)
  | .array items => .list (Value.itemsOfJson items)
  | .object fields => .record (Value.fieldsOfJson fields)

def Value.itemsOfJson : List Json → List Value
  | [] => []
  | item :: items => .ofJson item :: Value.itemsOfJson items

def Value.fieldsOfJson {lower : Option String} : Fields Json lower → Fields Value lower
  | .nil => .nil
  | .cons name above field rest => .cons name above (.ofJson field) (Value.fieldsOfJson rest)

end

end Conform
