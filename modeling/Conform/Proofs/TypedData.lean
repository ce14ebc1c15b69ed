import Conform.Codec
import Conform.Proofs.Exchange

/-!
Typed data that becomes a value and is read back: it comes back as the same data when it is exact,
and is refused when it is not.
-/

namespace Conform

open Binary64 (Safe)

/-- What comes of reading data back: the same data when it is exact, and an error when it is
not. -/
inductive Faithful {α : Type} (data : α) (exact : Prop) : Decoded α → Prop where
  | same (holds : exact) : Faithful data exact (.ok data)
  | refused (fails : ¬ exact) (error : DecodeError) : Faithful data exact (.error error)

namespace Faithful

variable {α β γ : Type} {data : α} {image : β} {exact other : Prop} {result : Decoded α}

theorem congr (faithful : Faithful data exact result) (same : exact ↔ other) :
    Faithful data other result := by
  cases faithful with
  | same holds => exact .same (same.mp holds)
  | refused fails error => exact .refused (fun holds => fails (same.mpr holds)) error

theorem map (f : α → β) (faithful : Faithful data exact result) :
    Faithful (f data) exact (f <$> result) := by
  cases faithful with
  | same holds => exact .same holds
  | refused fails error => exact .refused fails error

/-- Only the data itself comes of it, and only when it is exact. -/
theorem mapError_eq_ok_iff {ε : Type} {wrap : DecodeError → ε} {read : α}
    (faithful : Faithful data exact result) :
    result.mapError wrap = .ok read ↔ read = data ∧ exact := by
  constructor
  · intro same
    cases faithful with
    | same holds => exact ⟨(Except.ok.inj same).symm, holds⟩
    | refused fails error => cases same
  · rintro ⟨rfl, holds⟩
    cases faithful with
    | same _ => rfl
    | refused fails error => exact absurd holds fails

theorem mapError_eq_error_iff {ε : Type} {wrap : DecodeError → ε}
    (faithful : Faithful data exact result) :
    (∃ error, result.mapError wrap = .error (wrap error)) ↔ ¬ exact := by
  cases faithful with
  | same holds =>
    refine iff_of_false ?_ (not_not_intro holds)
    rintro ⟨error, failed⟩
    cases failed
  | refused fails error => exact iff_of_true ⟨error, rfl⟩ fails

/-- A reading that goes on from what was read is exact when both parts are. -/
theorem bind {next : α → Decoded β} (first : Faithful data exact result)
    (rest : Faithful image other (next data)) :
    Faithful image (exact ∧ other) (result >>= next) := by
  cases first with
  | same holds => exact rest.congr (and_iff_right holds).symm
  | refused fails error => exact .refused (fun both => fails both.1) error

theorem both (f : α → β → γ) {next : Decoded β} (first : Faithful data exact result)
    (second : Faithful image other next) :
    Faithful (f data image) (exact ∧ other) (do return f (← result) (← next)) := by
  apply first.bind
  exact second.map (f data)

end Faithful

namespace Json

/-- The document of the value that a document becomes. -/
def settled (json : Json) : Json :=
  (Value.ofJson json).toJson

theorem settled_array (items : List Json) :
    (array items).settled = .array (items.map settled) := by
  rw [settled, Value.ofJson_array, Value.toJson_list, List.map_map]
  rfl

theorem settled_object (fields : Fields Json none) :
    (object fields).settled = .object (fields.map settled) := by
  rw [settled, Value.ofJson_object, Value.toJson_record, Fields.map_map]
  rfl

/-- A whole number stays the same whole number while it is safe, and is none any more beyond. -/
theorem settled_integer (n : Int) (inRange : InRange n) :
    (number (.integer n inRange)).settled =
      if Safe n then number (.integer n inRange) else ofFloat (.ofInt n) := by
  have finite : (Binary64.ofInt n).isFinite = true :=
    (Number.integer n inRange).isFinite_toBinary64
  have whole := Binary64.toInt?_ofInt n
  change ofBinary64 (.ofInt n) = _
  rw [ofBinary64]
  by_cases safe : Safe n
  · rw [if_pos safe] at whole
    rw [if_pos safe, Number.ofBinary64?_of_whole whole]
  · rw [if_neg safe] at whole
    rw [if_neg safe, ofFloat, dif_pos finite, Number.ofBinary64?_of_fraction finite whole]

theorem settled_ofFloat (x : Binary64) : (ofFloat x).settled = ofBinary64 x := by
  rw [ofFloat]
  split
  · rfl
  · rename_i unbounded
    rw [ofBinary64, Number.ofBinary64?_eq_none (by simpa using unbounded)]
    rfl

end Json

namespace Decode

variable {α : Type} [Decode α]

/-- A number in the form with a fraction is no whole number, even where it is whole. -/
theorem integer_ofFloat (wanted : String) (least greatest : Int) (x : Binary64) :
    ∃ error, integer wanted least greatest (Json.ofFloat x) = .error error := by
  rw [Json.ofFloat]
  split
  · exact ⟨_, rfl⟩
  · exact ⟨_, rfl⟩

theorem integer_faithful {least greatest n : Int} (wanted : String) (inRange : Json.InRange n)
    (low : least ≤ n) (high : n ≤ greatest) :
    Faithful n (Safe n)
      (integer wanted least greatest (Json.number (.integer n inRange)).settled) := by
  rw [Json.settled_integer]
  split
  · rename_i safe
    rw [integer, if_pos ⟨low, high⟩]
    exact .same safe
  · rename_i large
    obtain ⟨error, refused⟩ := integer_ofFloat wanted least greatest (.ofInt n)
    rw [refused]
    exact .refused large error

theorem ofBinary64_faithful (x : Binary64) :
    Faithful x (x.isFinite = true) (decode (Json.ofBinary64 x)) := by
  rw [Json.ofBinary64]
  cases finite : x.isFinite with
  | false =>
    rw [Json.Number.ofBinary64?_eq_none finite]
    exact .refused Bool.false_ne_true _
  | true =>
    cases whole : x.toInt? with
    | none =>
      rw [Json.Number.ofBinary64?_of_fraction finite whole]
      exact .same rfl
    | some n =>
      obtain ⟨_, rfl⟩ := Binary64.toInt?_eq_some_iff.mp whole
      rw [Json.Number.ofBinary64?_of_whole whole]
      exact .same rfl

section

variable {document : α → Json} {exact : α → Prop}
  (faithful : ∀ part, Faithful part (exact part) (decode (document part)))

include faithful

theorem items_faithful (items : List α) :
    Faithful items (∀ item ∈ items, exact item) ((items.map document).mapM decode) := by
  induction items with
  | nil => exact .same (by simp)
  | cons item items ih =>
    rw [List.map_cons, List.mapM_cons]
    apply ((faithful item).both List.cons ih).congr
    rw [List.forall_mem_cons]

theorem fields_faithful {lower : Option String} (fields : Fields α lower) :
    Faithful fields (∀ name part, fields.find? name = some part → exact part)
      ((fields.map document).mapM decode) := by
  induction fields with
  | nil => exact .same (by simp [Fields.find?])
  | cons name above part rest ih =>
    rw [Fields.map, Fields.mapM]
    apply ((faithful part).both (Fields.cons name above) ih).congr
    rw [Fields.forall_find?_cons]

end

theorem optionalField_faithful {fields : Fields Json none} {name : String} {json : Json}
    {data : α} {exact : Prop} (found : fields.find? name = some json)
    (faithful : Faithful data exact (decode json)) :
    Faithful (some data) exact (optionalField fields name) := by
  rw [optionalField, found]
  exact faithful.map some

end Decode

section

variable {α : Type} [Encode α] {document : α → Json}
  (offered : ∀ part : α, (encode part).toJson = .ok (document part))

include offered

theorem Datum.itemsToJson_encode (items : List α) :
    itemsToJson (items.map encode) = .ok (items.map document) := by
  induction items with
  | nil => rfl
  | cons item items ih =>
    rw [List.map_cons, itemsToJson, offered, ih]
    rfl

theorem Datum.entriesToJson_encode (entries : List (String × α)) :
    entriesToJson (entries.map fun entry => (.string entry.1, encode entry.2)) =
      .ok (entries.map fun entry => (entry.1, document entry.2)) := by
  induction entries with
  | nil => rfl
  | cons entry entries ih =>
    rw [List.map_cons, entriesToJson, offered, ih]
    rfl

end

/-- The document under which data of a type is offered, with the assurance that the data is read
back from the value that the document becomes. -/
structure ReadsBack (α : Type) [Encode α] [Decode α] (exact : α → Prop) where
  document : α → Json
  offered : ∀ data, (encode data).toJson = .ok (document data)
  faithful : ∀ data, Faithful data (exact data) (decode (document data).settled)

namespace ReadsBack

def float64 : ReadsBack Binary64 fun x => x.isFinite = true where
  document := Json.ofFloat
  offered _ := rfl
  faithful x := by
    rw [Json.settled_ofFloat]
    exact Decode.ofBinary64_faithful x

def boolean : ReadsBack Bool fun _ => True where
  document := .boolean
  offered _ := rfl
  faithful _ := .same trivial

def string : ReadsBack String fun _ => True where
  document := .string
  offered _ := rfl
  faithful _ := .same trivial

def unit : ReadsBack Unit fun _ => True where
  document _ := .null
  offered _ := rfl
  faithful _ := .same trivial

def optionalString : ReadsBack (Option String) fun _ => True where
  document data := data.elim .null .string
  offered data := by cases data <;> rfl
  faithful data := by cases data <;> exact .same trivial

variable {α β : Type} [Encode α] [Decode α] [Encode β] [Decode β] {exact : α → Prop}
  {other : β → Prop}

theorem ofData_eq (whole : ReadsBack α exact) (data : α) :
    Value.ofData data = .ok (.ofJson (whole.document data)) := by
  rw [Value.ofData, Value.ofDatum, whole.offered]
  rfl

theorem toData_eq (whole : ReadsBack α exact) (data : α) :
    (Value.ofJson (whole.document data)).toData =
      (decode (whole.document data).settled : Decoded α).mapError .deserialize := rfl

theorem toData_eq_ok_iff (whole : ReadsBack α exact) {data other : α} :
    (Value.ofJson (whole.document data)).toData = .ok other ↔ other = data ∧ exact data := by
  rw [toData_eq]
  exact (whole.faithful data).mapError_eq_ok_iff

theorem toData_eq_error_iff (whole : ReadsBack α exact) {data : α} :
    (∃ error, ((Value.ofJson (whole.document data)).toData : Except ConversionError α) =
      .error (.deserialize error)) ↔ ¬ exact data := by
  rw [toData_eq]
  exact (whole.faithful data).mapError_eq_error_iff

def congr {same : α → Prop} (whole : ReadsBack α exact) (iff : ∀ data, exact data ↔ same data) :
    ReadsBack α same where
  document := whole.document
  offered := whole.offered
  faithful data := (whole.faithful data).congr (iff data)

def list (item : ReadsBack α exact) :
    ReadsBack (List α) fun items => ∀ item ∈ items, exact item where
  document items := .array (items.map item.document)
  offered items := by
    change (do return Json.array (← Datum.itemsToJson (items.map encode))) = _
    rw [Datum.itemsToJson_encode item.offered]
    rfl
  faithful items := by
    rw [Json.settled_array, List.map_map]
    exact Decode.items_faithful item.faithful items

def pair (first : ReadsBack α exact) (second : ReadsBack β other) :
    ReadsBack (α × β) fun pair => exact pair.1 ∧ other pair.2 where
  document pair := .array [first.document pair.1, second.document pair.2]
  offered pair := by
    change (do return Json.array (← Datum.itemsToJson [encode pair.1, encode pair.2])) = _
    rw [Datum.itemsToJson, Datum.itemsToJson, first.offered, second.offered]
    rfl
  faithful pair := by
    rw [Json.settled_array]
    exact (first.faithful pair.1).both Prod.mk (second.faithful pair.2)

def fields (part : ReadsBack α exact) :
    ReadsBack (Fields α none) fun fields =>
      ∀ name part, fields.find? name = some part → exact part where
  document fields := .object (fields.map part.document)
  offered fields := by
    change (do return Json.object (.ofList (← Datum.entriesToJson _))) = _
    rw [Datum.entriesToJson_encode part.offered, ← Fields.toList_map]
    exact congrArg (fun made => Except.ok (Json.object made)) (Fields.ofList_toList _)
  faithful fields := by
    rw [Json.settled_object, Fields.map_map]
    exact Decode.fields_faithful part.faithful fields

end ReadsBack

/-- A type of whole numbers that documents can hold. -/
structure IntegerFormat (α : Type) [Encode α] [Decode α] where
  wanted : String
  least : Int
  greatest : Int
  inRange : Json.InRange least ∧ Json.InRange greatest := by decide
  toInt : α → Int
  ofInt : Int → α
  ofInt_toInt : ∀ data, ofInt (toInt data) = data
  least_le : ∀ data, least ≤ toInt data
  le_greatest : ∀ data, toInt data ≤ greatest
  encode_eq : ∀ data : α, encode data = .integer (toInt data) := by exact fun _ => rfl
  decode_eq : ∀ json, (decode json : Decoded α) =
    ofInt <$> Decode.integer wanted least greatest json := by exact fun _ => rfl

namespace IntegerFormat

variable {α : Type} [Encode α] [Decode α] (format : IntegerFormat α)

theorem inRange_toInt (data : α) : Json.InRange (format.toInt data) :=
  ⟨Int.le_trans format.inRange.1.1 (format.least_le data),
    Int.le_trans (format.le_greatest data) format.inRange.2.2⟩

def readsBack : ReadsBack α fun data => Safe (format.toInt data) where
  document data := .number (.integer (format.toInt data) (format.inRange_toInt data))
  offered data := by
    rw [format.encode_eq, Datum.toJson, Json.ofInt?, dif_pos (format.inRange_toInt data)]
    rfl
  faithful data := by
    have read := Decode.integer_faithful format.wanted (format.inRange_toInt data)
      (format.least_le data) (format.le_greatest data)
    have image := read.map format.ofInt
    rwa [format.ofInt_toInt, ← format.decode_eq] at image

end IntegerFormat

end Conform
