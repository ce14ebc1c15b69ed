import Conform.Codec

/-!
The data types that programs name when they ask for typed data.
-/

namespace Conform

structure Blog where
  id : UInt32
  title : String
  deriving DecidableEq

structure Point where
  x : Binary64
  y : Binary64
  label : Option String
  deriving DecidableEq

instance : Encode Blog where
  encode blog := .map [(.string "Id", encode blog.id), (.string "Title", encode blog.title)]

instance : Encode Point where
  encode point := .map [(.string "x", encode point.x), (.string "y", encode point.y),
    (.string "label", encode point.label)]

namespace Blog

/-- Reads the items of an array by position. -/
def ofItems : List Json → Decoded Blog
  | [] => throw (.invalidLength 0 "struct Blog with 2 elements")
  | [id] => do
    let _ : UInt32 ← decode id
    throw (.invalidLength 1 "struct Blog with 2 elements")
  | id :: title :: rest => do
    let blog : Blog := ⟨← decode id, ← decode title⟩
    if rest.isEmpty then return blog else throw (Decode.tooLong (id :: title :: rest))

/-- Reads the fields that are there in name order, then asks for those that are missing. -/
def ofFields (fields : Fields Json none) : Decoded Blog := do
  let id ← Decode.optionalField fields "Id"
  let title ← Decode.optionalField fields "Title"
  return ⟨← Decode.required "Id" id, ← Decode.required "Title" title⟩

end Blog

instance : Decode Blog where
  decode
    | .array items => Blog.ofItems items
    | .object fields => Blog.ofFields fields
    | json => throw (.invalidType json "struct Blog")

namespace Point

/-- Reads the items of an array by position. -/
def ofItems : List Json → Decoded Point
  | [] => throw (.invalidLength 0 "struct Point with 3 elements")
  | [x] => do
    let _ : Binary64 ← decode x
    throw (.invalidLength 1 "struct Point with 3 elements")
  | [x, y] => do
    let _ : Binary64 ← decode x
    let _ : Binary64 ← decode y
    throw (.invalidLength 2 "struct Point with 3 elements")
  | x :: y :: label :: rest => do
    let point : Point := ⟨← decode x, ← decode y, ← decode label⟩
    if rest.isEmpty then return point else throw (Decode.tooLong (x :: y :: label :: rest))

/-- Reads the fields that are there in name order, then asks for those that are missing. A point
needs no label. -/
def ofFields (fields : Fields Json none) : Decoded Point := do
  let label ← Decode.optionalField fields "label"
  let x ← Decode.optionalField fields "x"
  let y ← Decode.optionalField fields "y"
  return ⟨← Decode.required "x" x, ← Decode.required "y" y, label.join⟩

end Point

instance : Decode Point where
  decode
    | .array items => Point.ofItems items
    | .object fields => Point.ofFields fields
    | json => throw (.invalidType json "struct Point")

inductive DataType where
  | int8
  | uint8
  | int16
  | uint16
  | int32
  | uint32
  | int64
  | uint64
  | float64
  | boolean
  | string
  | unit
  | optionalString
  | listOfUInt32
  | listOfFloat64
  | pair
  | mapToFloat64
  | blog
  | listOfBlog
  | point
  deriving DecidableEq, Repr

namespace DataType

/-- The type of the data that a name stands for. -/
def Carrier : DataType → Type
  | .int8 => Int8
  | .uint8 => UInt8
  | .int16 => Int16
  | .uint16 => UInt16
  | .int32 => Int32
  | .uint32 => UInt32
  | .int64 => Int64
  | .uint64 => UInt64
  | .float64 => Binary64
  | .boolean => Bool
  | .string => String
  | .unit => Unit
  | .optionalString => Option String
  | .listOfUInt32 => List UInt32
  | .listOfFloat64 => List Binary64
  | .pair => String × UInt32
  | .mapToFloat64 => Fields Binary64 none
  | .blog => Blog
  | .listOfBlog => List Blog
  | .point => Point

instance : (type : DataType) → Encode type.Carrier
  | .int8 => inferInstanceAs (Encode Int8)
  | .uint8 => inferInstanceAs (Encode UInt8)
  | .int16 => inferInstanceAs (Encode Int16)
  | .uint16 => inferInstanceAs (Encode UInt16)
  | .int32 => inferInstanceAs (Encode Int32)
  | .uint32 => inferInstanceAs (Encode UInt32)
  | .int64 => inferInstanceAs (Encode Int64)
  | .uint64 => inferInstanceAs (Encode UInt64)
  | .float64 => inferInstanceAs (Encode Binary64)
  | .boolean => inferInstanceAs (Encode Bool)
  | .string => inferInstanceAs (Encode String)
  | .unit => inferInstanceAs (Encode Unit)
  | .optionalString => inferInstanceAs (Encode (Option String))
  | .listOfUInt32 => inferInstanceAs (Encode (List UInt32))
  | .listOfFloat64 => inferInstanceAs (Encode (List Binary64))
  | .pair => inferInstanceAs (Encode (String × UInt32))
  | .mapToFloat64 => inferInstanceAs (Encode (Fields Binary64 none))
  | .blog => inferInstanceAs (Encode Blog)
  | .listOfBlog => inferInstanceAs (Encode (List Blog))
  | .point => inferInstanceAs (Encode Point)

instance : (type : DataType) → Decode type.Carrier
  | .int8 => inferInstanceAs (Decode Int8)
  | .uint8 => inferInstanceAs (Decode UInt8)
  | .int16 => inferInstanceAs (Decode Int16)
  | .uint16 => inferInstanceAs (Decode UInt16)
  | .int32 => inferInstanceAs (Decode Int32)
  | .uint32 => inferInstanceAs (Decode UInt32)
  | .int64 => inferInstanceAs (Decode Int64)
  | .uint64 => inferInstanceAs (Decode UInt64)
  | .float64 => inferInstanceAs (Decode Binary64)
  | .boolean => inferInstanceAs (Decode Bool)
  | .string => inferInstanceAs (Decode String)
  | .unit => inferInstanceAs (Decode Unit)
  | .optionalString => inferInstanceAs (Decode (Option String))
  | .listOfUInt32 => inferInstanceAs (Decode (List UInt32))
  | .listOfFloat64 => inferInstanceAs (Decode (List Binary64))
  | .pair => inferInstanceAs (Decode (String × UInt32))
  | .mapToFloat64 => inferInstanceAs (Decode (Fields Binary64 none))
  | .blog => inferInstanceAs (Decode Blog)
  | .listOfBlog => inferInstanceAs (Decode (List Blog))
  | .point => inferInstanceAs (Decode Point)

/-- Reads a value as a type and turns the data back into a value. -/
def recode (type : DataType) (value : Value) : Except ConversionError Value := do
  let data : type.Carrier ← value.toData
  Value.ofData data

end DataType

end Conform
