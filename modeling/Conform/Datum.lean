import Conform.Binary32
import Conform.Json
import Conform.Text.Located

/-!
Data that a producer offers for conversion into values, and the conversion through JSON
documents. Producers tell more forms of data apart than documents do.
-/

namespace Conform

inductive Datum where
  /-- Nothing, or an absent optional datum. -/
  | unit
  | boolean (value : Bool)
  /-- A whole number of any width. -/
  | integer (value : Int)
  | float64 (value : Binary64)
  | float32 (value : Binary32)
  | char (value : Char)
  | string (value : String)
  | bytes (values : List UInt8)
  /-- An optional datum that is present. -/
  | present (datum : Datum)
  /-- One of several named alternatives, without content. -/
  | alternative (name : String)
  /-- One of several named alternatives, with content. -/
  | alternativeOf (name : String) (datum : Datum)
  | sequence (items : List Datum)
  | map (entries : List (Datum × Datum))
  /-- A producer that gives up with a text of its own. -/
  | failure (text : String)

/-- Why a datum is not converted. -/
inductive SerializeError where
  | numberOutOfRange
  | floatKeyNotFinite
  | keyNotString
  | custom (text : String)
  deriving DecidableEq, Repr

/-- The text of an error. A text of the producer's own may end in a place. -/
def SerializeError.message : SerializeError → String
  | .numberOutOfRange => "number out of range"
  | .floatKeyNotFinite => "float key must be finite (got NaN or +/-inf)"
  | .keyNotString => "key must be a string"
  | .custom text => Text.withPlainPlace text

namespace Datum

instance : Inhabited Datum := ⟨.unit⟩

/-- The name that a map key becomes. Strings are names, and so are the scalars that have a text
of their own. -/
def keyName : Datum → Except SerializeError String
  | .string value => return value
  | .char value => return String.singleton value
  | .alternative name => return name
  | .integer value => return toString value
  | .boolean value => return toString value
  | .float64 value => if value.isFinite then return value.documentText else throw .floatKeyNotFinite
  | .float32 value => if value.isFinite then return value.documentText else throw .floatKeyNotFinite
  | .failure text => throw (.custom text)
  | .unit | .bytes _ | .present _ | .alternativeOf _ _ | .sequence _ | .map _ => throw .keyNotString

def byteToJson (byte : UInt8) : Json :=
  .number (.integer byte.toNat (by
    have bound := byte.toNat_lt
    unfold Json.InRange
    omega))

end Datum

mutual

/-- The document of a datum. Parts are converted in order, the key of an entry before its
content; the first failure ends the conversion. -/
def Datum.toJson : Datum → Except SerializeError Json
  | .unit => return .null
  | .boolean value => return .boolean value
  | .integer value =>
    match Json.ofInt? value with
    | some json => return json
    | none => throw .numberOutOfRange
  | .float64 value => return .ofFloat value
  | .float32 value => return .ofFloat value.widen
  | .char value => return .string (String.singleton value)
  | .string value => return .string value
  | .bytes values => return .array (values.map Datum.byteToJson)
  | .present datum => datum.toJson
  | .alternative name => return .string name
  | .alternativeOf name datum => return .object (.ofList [(name, ← datum.toJson)])
  | .sequence items => return .array (← Datum.itemsToJson items)
  | .map entries => return .object (.ofList (← Datum.entriesToJson entries))
  | .failure text => throw (.custom text)

def Datum.itemsToJson : List Datum → Except SerializeError (List Json)
  | [] => return []
  | item :: items => do
    let first ← item.toJson
    let rest ← Datum.itemsToJson items
    return first :: rest

def Datum.entriesToJson : List (Datum × Datum) → Except SerializeError (List (String × Json))
  | [] => return []
  | (key, content) :: entries => do
    let name ← key.keyName
    let first ← content.toJson
    let rest ← Datum.entriesToJson entries
    return (name, first) :: rest

end

/-- The value of a datum. -/
def Value.ofDatum (datum : Datum) : Except SerializeError Value :=
  return .ofJson (← datum.toJson)

end Conform
