import Conform.DataType
import Conform.Proofs.TypedData

/-!
The data types that programs name: no data of theirs is silently changed on its way through a
value.
-/

namespace Conform

open Binary64 (Safe)

namespace IntegerFormat

def int8 : IntegerFormat Int8 where
  wanted := "i8"
  least := -0x80
  greatest := 0x7f
  toInt := Int8.toInt
  ofInt := Int8.ofInt
  ofInt_toInt n := Int8.ofInt_toInt n
  least_le n := n.le_toInt
  le_greatest n := n.toInt_le

def uint8 : IntegerFormat UInt8 where
  wanted := "u8"
  least := 0
  greatest := 0xff
  toInt n := n.toNat
  ofInt n := .ofNat n.toNat
  ofInt_toInt _ := UInt8.ofNat_toNat
  least_le _ := Int.natCast_nonneg _
  le_greatest n := Int.ofNat_le.mpr (Nat.le_of_lt_succ n.toNat_lt)

def int16 : IntegerFormat Int16 where
  wanted := "i16"
  least := -0x8000
  greatest := 0x7fff
  toInt := Int16.toInt
  ofInt := Int16.ofInt
  ofInt_toInt n := Int16.ofInt_toInt n
  least_le n := n.le_toInt
  le_greatest n := n.toInt_le

def uint16 : IntegerFormat UInt16 where
  wanted := "u16"
  least := 0
  greatest := 0xffff
  toInt n := n.toNat
  ofInt n := .ofNat n.toNat
  ofInt_toInt _ := UInt16.ofNat_toNat
  least_le _ := Int.natCast_nonneg _
  le_greatest n := Int.ofNat_le.mpr (Nat.le_of_lt_succ n.toNat_lt)

def int32 : IntegerFormat Int32 where
  wanted := "i32"
  least := -0x80000000
  greatest := 0x7fffffff
  toInt := Int32.toInt
  ofInt := Int32.ofInt
  ofInt_toInt n := Int32.ofInt_toInt n
  least_le n := n.le_toInt
  le_greatest n := n.toInt_le

def uint32 : IntegerFormat UInt32 where
  wanted := "u32"
  least := 0
  greatest := 0xffffffff
  toInt n := n.toNat
  ofInt n := .ofNat n.toNat
  ofInt_toInt _ := UInt32.ofNat_toNat
  least_le _ := Int.natCast_nonneg _
  le_greatest n := Int.ofNat_le.mpr (Nat.le_of_lt_succ n.toNat_lt)

def int64 : IntegerFormat Int64 where
  wanted := "i64"
  least := -0x8000000000000000
  greatest := 0x7fffffffffffffff
  toInt := Int64.toInt
  ofInt := Int64.ofInt
  ofInt_toInt n := Int64.ofInt_toInt n
  least_le n := n.le_toInt
  le_greatest n := n.toInt_le

def uint64 : IntegerFormat UInt64 where
  wanted := "u64"
  least := 0
  greatest := 0xffffffffffffffff
  toInt n := n.toNat
  ofInt n := .ofNat n.toNat
  ofInt_toInt _ := UInt64.ofNat_toNat
  least_le _ := Int.natCast_nonneg _
  le_greatest n := Int.ofNat_le.mpr (Nat.le_of_lt_succ n.toNat_lt)

end IntegerFormat

/-- An entry is exact when its number is. -/
def Blog.Exact (blog : Blog) : Prop :=
  Safe blog.id.toNat

/-- A point is exact when its coordinates are finite; its label does not matter. -/
def Point.Exact (point : Point) : Prop :=
  point.x.isFinite = true ∧ point.y.isFinite = true

namespace ReadsBack

def blog : ReadsBack Blog Blog.Exact where
  document blog := .object (.ofList [("Id", IntegerFormat.uint32.readsBack.document blog.id),
    ("Title", string.document blog.title)])
  offered blog := by
    have id := IntegerFormat.uint32.readsBack.offered blog.id
    change (do return Json.object (.ofList (← Datum.entriesToJson
      [(.string "Id", encode blog.id), (.string "Title", encode blog.title)]))) = _
    rw [Datum.entriesToJson, id]
    rfl
  faithful blog := by
    rw [Json.settled_object]
    generalize found : Fields.map Json.settled _ = fields
    have id : Faithful (some blog.id) (Safe blog.id.toNat) (Decode.optionalField fields "Id") := by
      apply Decode.optionalField_faithful _ (IntegerFormat.uint32.readsBack.faithful blog.id)
      rw [← found]
      simp [Fields.ofList]
    have title : Faithful (some blog.title) True (Decode.optionalField fields "Title") := by
      apply Decode.optionalField_faithful _ (string.faithful blog.title)
      rw [← found]
      simp [Fields.ofList]
    have read : Faithful blog (Safe blog.id.toNat ∧ True ∧ True) (Blog.ofFields fields) :=
      id.bind (title.bind (.same trivial))
    exact read.congr (by simp [Blog.Exact])

def point : ReadsBack Point Point.Exact where
  document point := .object (.ofList [("x", float64.document point.x),
    ("y", float64.document point.y), ("label", optionalString.document point.label)])
  offered point := by
    have label := optionalString.offered point.label
    change (do return Json.object (.ofList (← Datum.entriesToJson [(.string "x", encode point.x),
      (.string "y", encode point.y), (.string "label", encode point.label)]))) = _
    rw [Datum.entriesToJson, Datum.entriesToJson, Datum.entriesToJson, label]
    rfl
  faithful point := by
    rw [Json.settled_object]
    generalize found : Fields.map Json.settled _ = fields
    have label : Faithful (some point.label) True (Decode.optionalField fields "label") := by
      apply Decode.optionalField_faithful _ (optionalString.faithful point.label)
      rw [← found]
      simp [Fields.ofList]
    have x : Faithful (some point.x) (point.x.isFinite = true)
        (Decode.optionalField fields "x") := by
      apply Decode.optionalField_faithful _ (float64.faithful point.x)
      rw [← found]
      simp [Fields.ofList]
    have y : Faithful (some point.y) (point.y.isFinite = true)
        (Decode.optionalField fields "y") := by
      apply Decode.optionalField_faithful _ (float64.faithful point.y)
      rw [← found]
      simp [Fields.ofList]
    have read : Faithful point
        (True ∧ point.x.isFinite = true ∧ point.y.isFinite = true ∧ True)
        (Point.ofFields fields) :=
      label.bind (x.bind (y.bind (.same trivial)))
    exact read.congr (by simp [Point.Exact])

end ReadsBack

namespace DataType

/-- Data is exact when every whole number in it is safe and every other number is finite. -/
def Exact : (type : DataType) → type.Carrier → Prop
  | .int8 => fun n : Int8 => Safe n.toInt
  | .uint8 => fun n : UInt8 => Safe n.toNat
  | .int16 => fun n : Int16 => Safe n.toInt
  | .uint16 => fun n : UInt16 => Safe n.toNat
  | .int32 => fun n : Int32 => Safe n.toInt
  | .uint32 => fun n : UInt32 => Safe n.toNat
  | .int64 => fun n : Int64 => Safe n.toInt
  | .uint64 => fun n : UInt64 => Safe n.toNat
  | .float64 => fun x : Binary64 => x.isFinite = true
  | .boolean | .string | .unit | .optionalString => fun _ => True
  | .listOfUInt32 => fun items : List UInt32 => ∀ n ∈ items, Safe n.toNat
  | .listOfFloat64 => fun items : List Binary64 => ∀ x ∈ items, x.isFinite = true
  | .pair => fun both : String × UInt32 => Safe both.2.toNat
  | .mapToFloat64 => fun fields : Fields Binary64 none =>
    ∀ name x, fields.find? name = some x → x.isFinite = true
  | .blog => Blog.Exact
  | .listOfBlog => fun items : List Blog => ∀ item ∈ items, item.Exact
  | .point => Point.Exact

def readsBack : (type : DataType) → ReadsBack type.Carrier type.Exact
  | .int8 => IntegerFormat.int8.readsBack
  | .uint8 => IntegerFormat.uint8.readsBack
  | .int16 => IntegerFormat.int16.readsBack
  | .uint16 => IntegerFormat.uint16.readsBack
  | .int32 => IntegerFormat.int32.readsBack
  | .uint32 => IntegerFormat.uint32.readsBack
  | .int64 => IntegerFormat.int64.readsBack
  | .uint64 => IntegerFormat.uint64.readsBack
  | .float64 => .float64
  | .boolean => .boolean
  | .string => .string
  | .unit => .unit
  | .optionalString => .optionalString
  | .listOfUInt32 => .list IntegerFormat.uint32.readsBack
  | .listOfFloat64 => .list .float64
  | .pair =>
    (ReadsBack.string.pair IntegerFormat.uint32.readsBack).congr fun _ => and_iff_right trivial
  | .mapToFloat64 => .fields .float64
  | .blog => .blog
  | .listOfBlog => .list .blog
  | .point => .point

/-- Data of a named type becomes a value. Reading that value gives the same data when the data is
exact, an error when it is not, and never any other data. -/
theorem toData_ofData (type : DataType) (data : type.Carrier) :
    ∃ value, Value.ofData data = .ok value ∧
      (∀ other : type.Carrier, value.toData = .ok other ↔ other = data ∧ type.Exact data) ∧
      ((∃ error, (value.toData : Except ConversionError type.Carrier) =
        .error (.deserialize error)) ↔ ¬ type.Exact data) := by
  refine ⟨_, type.readsBack.ofData_eq data, ?_, ?_⟩
  · intro other
    exact type.readsBack.toData_eq_ok_iff
  · exact type.readsBack.toData_eq_error_iff

/-- The greatest safe number is read back, and the next one, which a double holds as well, is
refused. -/
theorem toData_ofData_limit :
    (∃ value, Value.ofData (9007199254740991 : UInt64) = .ok value ∧
      value.toData = .ok (9007199254740991 : UInt64)) ∧
    ∃ value error, Value.ofData (9007199254740992 : UInt64) = .ok value ∧
      (value.toData : Except ConversionError UInt64) = .error (.deserialize error) := by
  obtain ⟨value, made, read, _⟩ := toData_ofData .uint64 (9007199254740991 : UInt64)
  obtain ⟨next, nextMade, _, refused⟩ := toData_ofData .uint64 (9007199254740992 : UInt64)
  have safe : Safe (9007199254740991 : UInt64).toNat := by decide
  have large : ¬ Safe (9007199254740992 : UInt64).toNat := by decide
  obtain ⟨error, failed⟩ := refused.mpr large
  exact ⟨⟨value, made, (read _).mpr ⟨rfl, safe⟩⟩, next, error, nextMade, failed⟩

end DataType

end Conform
