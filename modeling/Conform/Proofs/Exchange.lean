import Conform.Codec
import Conform.Proofs.Induction
import Conform.Proofs.WholeNumber

/-!
The exchange of values with documents: it loses what is no finite number, and nothing else.
-/

namespace Conform

/-- What documents keep of a scalar. -/
def Scalar.finiteOrNull : Scalar → Scalar
  | .number x => if x.isFinite then .number x else .null
  | value => value

mutual

/-- Applies a function to all scalars of a value. The lists and records around them stay as they
are. -/
def Value.mapScalars (f : Scalar → Scalar) : Value → Value
  | .scalar value => .scalar (f value)
  | .list items => .list (Value.mapItemScalars f items)
  | .record fields => .record (Value.mapFieldScalars f fields)

def Value.mapItemScalars (f : Scalar → Scalar) : List Value → List Value
  | [] => []
  | item :: items => item.mapScalars f :: Value.mapItemScalars f items

def Value.mapFieldScalars (f : Scalar → Scalar) {lower : Option String} :
    Fields Value lower → Fields Value lower
  | .nil => .nil
  | .cons name above value rest =>
    .cons name above (value.mapScalars f) (Value.mapFieldScalars f rest)

end

namespace Value

variable {lower : Option String}

theorem mapScalars_list (f : Scalar → Scalar) (items : List Value) :
    (list items).mapScalars f = .list (items.map fun item => item.mapScalars f) := by
  have all : mapItemScalars f items = items.map fun item => item.mapScalars f := by
    induction items with
    | nil => rfl
    | cons item items ih => rw [mapItemScalars, ih, List.map_cons]
  rw [mapScalars, all]

theorem mapFieldScalars_eq_map (f : Scalar → Scalar) (fields : Fields Value lower) :
    mapFieldScalars f fields = fields.map fun part => part.mapScalars f := by
  induction fields with
  | nil => rfl
  | cons name above value rest ih => rw [mapFieldScalars, ih, Fields.map]

theorem mapScalars_record (f : Scalar → Scalar) (fields : Fields Value none) :
    (record fields).mapScalars f = .record (fields.map fun part => part.mapScalars f) := by
  rw [mapScalars, mapFieldScalars_eq_map]

theorem toJson_list (items : List Value) : (list items).toJson = .array (items.map toJson) := by
  have all : itemsToJson items = items.map toJson := by
    induction items with
    | nil => rfl
    | cons item items ih => rw [itemsToJson, ih, List.map_cons]
  rw [toJson, all]

theorem fieldsToJson_eq_map (fields : Fields Value lower) :
    fieldsToJson fields = fields.map toJson := by
  induction fields with
  | nil => rfl
  | cons name above value rest ih => rw [fieldsToJson, ih, Fields.map]

theorem toJson_record (fields : Fields Value none) :
    (record fields).toJson = .object (fields.map toJson) := by
  rw [toJson, fieldsToJson_eq_map]

theorem ofJson_array (items : List Json) : ofJson (.array items) = .list (items.map ofJson) := by
  have all : itemsOfJson items = items.map ofJson := by
    induction items with
    | nil => rfl
    | cons item items ih => rw [itemsOfJson, ih, List.map_cons]
  rw [ofJson, all]

theorem fieldsOfJson_eq_map (fields : Fields Json lower) :
    fieldsOfJson fields = fields.map ofJson := by
  induction fields with
  | nil => rfl
  | cons name above field rest ih => rw [fieldsOfJson, ih, Fields.map]

theorem ofJson_object (fields : Fields Json none) :
    ofJson (.object fields) = .record (fields.map ofJson) := by
  rw [ofJson, fieldsOfJson_eq_map]

end Value

namespace Json

variable {x : Binary64}

theorem Number.ofBinary64?_of_whole {n : Int} (whole : x.toInt? = some n) :
    Number.ofBinary64? x =
      some (.integer n (inRange_of_safe (Binary64.toInt?_natAbs_le whole))) := by
  obtain ⟨safe, own⟩ := Binary64.toInt?_eq_some_iff.mp whole
  have finite : x.isFinite = true := by
    rw [own]
    exact Binary64.isFinite_ofInt_of_safe safe
  rw [ofBinary64?, dif_pos finite]
  split
  · rename_i other found
    obtain rfl := Option.some.inj (found.symm.trans whole)
    rfl
  · rename_i absent
    cases absent.symm.trans whole

theorem Number.ofBinary64?_of_fraction (finite : x.isFinite = true)
    (fraction : x.toInt? = none) : Number.ofBinary64? x = some (.float x finite) := by
  rw [ofBinary64?, dif_pos finite]
  split
  · rename_i n found
    cases found.symm.trans fraction
  · rfl

theorem Number.ofBinary64?_eq_none (unbounded : x.isFinite = false) :
    Number.ofBinary64? x = none := by
  rw [ofBinary64?, dif_neg (by simp [unbounded])]

theorem Number.isFinite_toBinary64 (n : Number) : n.toBinary64.isFinite = true := by
  cases n with
  | integer n inRange =>
    obtain ⟨low, high⟩ := inRange
    exact Binary64.isFinite_ofInt (by omega)
  | float x finite => exact finite

/-- A finite number is written in a form that reads back to it, bit for bit. -/
theorem ofJson_ofBinary64 (x : Binary64) :
    Value.ofJson (ofBinary64 x) = .scalar (Scalar.finiteOrNull (.number x)) := by
  cases finite : x.isFinite with
  | false =>
    rw [ofBinary64, Number.ofBinary64?_eq_none finite]
    simp [Scalar.finiteOrNull, finite, Value.ofJson]
  | true =>
    rw [Scalar.finiteOrNull, if_pos finite, ofBinary64]
    cases whole : x.toInt? with
    | none =>
      rw [Number.ofBinary64?_of_fraction finite whole]
      rfl
    | some n =>
      obtain ⟨_, rfl⟩ := Binary64.toInt?_eq_some_iff.mp whole
      rw [Number.ofBinary64?_of_whole whole]
      rfl

end Json

namespace Value

theorem ofJson_toJson (value : Value) :
    ofJson value.toJson = value.mapScalars Scalar.finiteOrNull := by
  induction value with
  | scalar value =>
    cases value with
    | number x => exact Json.ofJson_ofBinary64 x
    | null | boolean | string => rfl
  | list items ih =>
    rw [toJson_list, ofJson_array, List.map_map, mapScalars_list]
    exact congrArg list (List.map_congr_left ih)
  | record fields ih =>
    rw [toJson_record, ofJson_object, Fields.map_map, mapScalars_record]
    exact congrArg record (Fields.map_congr ih)

example : ofJson (toJson (.list [.number .negativeZero, .number .infinity, .ofInt (-3)])) =
    .list [.number .negativeZero, .null, .ofInt (-3)] := rfl

/-- Documents hold finite numbers only. -/
theorem mapScalars_ofJson (json : Json) :
    (ofJson json).mapScalars Scalar.finiteOrNull = ofJson json := by
  induction json with
  | null | boolean | string => rfl
  | number n =>
    rw [ofJson, mapScalars, Scalar.finiteOrNull, if_pos n.isFinite_toBinary64]
  | array items ih =>
    rw [ofJson_array, mapScalars_list, List.map_map]
    exact congrArg list (List.map_congr_left ih)
  | object fields ih =>
    rw [ofJson_object, mapScalars_record, Fields.map_map]
    exact congrArg record (Fields.map_congr ih)

theorem ofJson_toJson_ofJson (json : Json) : ofJson (ofJson json).toJson = ofJson json := by
  rw [ofJson_toJson, mapScalars_ofJson]

theorem ofJson_toJson_of_ofDatum (datum : Datum) :
    (ofDatum datum).map (fun value => ofJson value.toJson) = ofDatum datum := by
  rw [ofDatum]
  cases datum.toJson with
  | error error => rfl
  | ok json => exact congrArg Except.ok (ofJson_toJson_ofJson json)

/-- A value comes back from its document with null for what is no finite number and unchanged
else. A value that was made from a document, from a datum or from typed data comes back as it
is. -/
theorem toJson_round_trip :
    (∀ value : Value, ofJson value.toJson = value.mapScalars Scalar.finiteOrNull) ∧
      (∀ json : Json, ofJson (ofJson json).toJson = ofJson json) ∧
      (∀ datum : Datum, (ofDatum datum).map (fun value => ofJson value.toJson) = ofDatum datum) ∧
      ∀ (α : Type) [Encode α] (data : α),
        (ofData data).map (fun value => ofJson value.toJson) = ofData data := by
  refine ⟨ofJson_toJson, ofJson_toJson_ofJson, ofJson_toJson_of_ofDatum, ?_⟩
  intro α _ data
  have offered := ofJson_toJson_of_ofDatum (encode data)
  rw [ofData]
  cases made : ofDatum (encode data) with
  | error error => rfl
  | ok value =>
    rw [made] at offered
    have same : ofJson value.toJson = value := Except.ok.inj offered
    exact congrArg Except.ok same

end Value

end Conform
