import Conform.Datum

/-!
Typed data: how it is offered as a datum, and how it is read from a document.

Reading takes the document as it is. Whole numbers fit integer types whose range holds them and
all of them fit doubles; numbers with a fraction never fit integer types, however small the
fraction.
-/

namespace Conform

/-- Why a document is not read as a type. -/
inductive DecodeError where
  | invalidType (found : Json) (wanted : String)
  /-- A whole number outside the range of an integer type. -/
  | invalidValue (found : Int) (wanted : String)
  /-- An array with too few or too many items. -/
  | invalidLength (count : Nat) (wanted : String)
  | missingField (name : String)

/-- How an error names what was found. -/
def Json.describe : Json → String
  | .null => "null"
  | .boolean value => "boolean `" ++ toString value ++ "`"
  | .number (.integer n _) => "integer `" ++ toString n ++ "`"
  | .number (.float x _) => "floating point `" ++ x.documentText ++ "`"
  | .string value => "string " ++ Text.quote value
  | .array _ => "sequence"
  | .object _ => "map"

def DecodeError.message : DecodeError → String
  | .invalidType found wanted =>
    "invalid type: " ++ found.describe ++ ", expected " ++ wanted
  | .invalidValue found wanted =>
    "invalid value: integer `" ++ toString found ++ "`, expected " ++ wanted
  | .invalidLength count wanted =>
    "invalid length " ++ toString count ++ ", expected " ++ wanted
  | .missingField name => "missing field `" ++ name ++ "`"

abbrev Decoded := Except DecodeError

class Encode (α : Type) where
  encode : α → Datum

class Decode (α : Type) where
  decode : Json → Decoded α

export Encode (encode)
export Decode (decode)

namespace Decode

variable {α : Type}

/-- Reads a whole number of the range from `least` to `greatest`. -/
def integer (wanted : String) (least greatest : Int) : Json → Decoded Int
  | .number (.integer n _) =>
    if least ≤ n ∧ n ≤ greatest then return n else throw (.invalidValue n wanted)
  | json => throw (.invalidType json wanted)

/-- Reads the items of an array. -/
def array (wanted : String) (read : List Json → Decoded α) : Json → Decoded α
  | .array items => read items
  | json => throw (.invalidType json wanted)

/-- The error of an array with too many items, found after those that count have been read. -/
def tooLong (items : List Json) : DecodeError :=
  .invalidLength items.length "fewer elements in array"

/-- A field that may be absent, read if it is there. -/
def optionalField [Decode α] (fields : Fields Json none) (name : String) : Decoded (Option α) :=
  match fields.find? name with
  | some json => return some (← decode json)
  | none => return none

def required (name : String) : Option α → Decoded α
  | some value => return value
  | none => throw (.missingField name)

end Decode

instance : Encode Int8 := ⟨fun n => .integer n.toInt⟩
instance : Encode UInt8 := ⟨fun n => .integer n.toNat⟩
instance : Encode Int16 := ⟨fun n => .integer n.toInt⟩
instance : Encode UInt16 := ⟨fun n => .integer n.toNat⟩
instance : Encode Int32 := ⟨fun n => .integer n.toInt⟩
instance : Encode UInt32 := ⟨fun n => .integer n.toNat⟩
instance : Encode Int64 := ⟨fun n => .integer n.toInt⟩
instance : Encode UInt64 := ⟨fun n => .integer n.toNat⟩
instance : Encode Binary64 := ⟨.float64⟩
instance : Encode Bool := ⟨.boolean⟩
instance : Encode String := ⟨.string⟩
instance : Encode Unit := ⟨fun _ => .unit⟩

instance {α : Type} [Encode α] : Encode (Option α) where
  encode
    | some value => .present (encode value)
    | none => .unit

instance {α : Type} [Encode α] : Encode (List α) :=
  ⟨fun items => .sequence (items.map encode)⟩

instance {α β : Type} [Encode α] [Encode β] : Encode (α × β) :=
  ⟨fun pair => .sequence [encode pair.1, encode pair.2]⟩

instance {α : Type} [Encode α] : Encode (Fields α none) :=
  ⟨fun fields => .map (fields.toList.map fun entry => (.string entry.1, encode entry.2))⟩

instance : Decode Int8 where
  decode json := return .ofInt (← Decode.integer "i8" (-0x80) 0x7f json)

instance : Decode UInt8 where
  decode json := return .ofNat (← Decode.integer "u8" 0 0xff json).toNat

instance : Decode Int16 where
  decode json := return .ofInt (← Decode.integer "i16" (-0x8000) 0x7fff json)

instance : Decode UInt16 where
  decode json := return .ofNat (← Decode.integer "u16" 0 0xffff json).toNat

instance : Decode Int32 where
  decode json := return .ofInt (← Decode.integer "i32" (-0x80000000) 0x7fffffff json)

instance : Decode UInt32 where
  decode json := return .ofNat (← Decode.integer "u32" 0 0xffffffff json).toNat

instance : Decode Int64 where
  decode json :=
    return .ofInt (← Decode.integer "i64" (-0x8000000000000000) 0x7fffffffffffffff json)

instance : Decode UInt64 where
  decode json := return .ofNat (← Decode.integer "u64" 0 0xffffffffffffffff json).toNat

instance : Decode Binary64 where
  decode
    | .number n => return n.toBinary64
    | json => throw (.invalidType json "f64")

instance : Decode Bool where
  decode
    | .boolean value => return value
    | json => throw (.invalidType json "a boolean")

instance : Decode String where
  decode
    | .string value => return value
    | json => throw (.invalidType json "a string")

instance : Decode Unit where
  decode
    | .null => return ()
    | json => throw (.invalidType json "unit")

instance {α : Type} [Decode α] : Decode (Option α) where
  decode
    | .null => return none
    | json => return some (← decode json)

instance {α : Type} [Decode α] : Decode (List α) where
  decode := Decode.array "a sequence" fun items => items.mapM decode

instance {α β : Type} [Decode α] [Decode β] : Decode (α × β) where
  decode := Decode.array "a tuple of size 2" fun
    | [] => throw (.invalidLength 0 "a tuple of size 2")
    | [first] => do
      let _ : α ← decode first
      throw (.invalidLength 1 "a tuple of size 2")
    | [first, second] => return (← decode first, ← decode second)
    | items@(first :: second :: _) => do
      let _ : α ← decode first
      let _ : β ← decode second
      throw (Decode.tooLong items)

instance {α : Type} [Decode α] : Decode (Fields α none) where
  decode
    | .object fields => fields.mapM decode
    | json => throw (.invalidType json "a map")

/-- Why data is not converted to or from a value. -/
inductive ConversionError where
  | serialize (error : SerializeError)
  | deserialize (error : DecodeError)

def ConversionError.message : ConversionError → String
  | .serialize error => "cannot convert into a value: " ++ error.message
  | .deserialize error => "cannot decode value: " ++ error.message

namespace Value

variable {α : Type}

/-- The value of typed data. -/
def ofData [Encode α] (data : α) : Except ConversionError Value :=
  (ofDatum (encode data)).mapError .serialize

/-- The typed data that a value holds. -/
def toData [Decode α] (value : Value) : Except ConversionError α :=
  (decode value.toJson).mapError .deserialize

end Value

end Conform
