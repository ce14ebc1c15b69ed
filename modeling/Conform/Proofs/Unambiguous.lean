import Conform.Proofs.Layout
import Conform.Proofs.Naming
import Conform.Proofs.NumberText
import Conform.Proofs.Rendering

/-!
The texts of values and patterns are layouts. Where all names are identifiers, a text shows what was
written, up to which of the numbers that are none it was.
-/

namespace Conform

/-- How a scalar is laid out: strings are quoted, everything else is a word. -/
def Scalar.layout : Scalar → Layout
  | .null => .word "null".toList
  | .boolean true => .word "true".toList
  | .boolean false => .word "false".toList
  | .number x => .word x.toText.toList
  | .string text => .quoted text

/-- The scalar, with one payload for all numbers that are none. -/
def Scalar.canonical : Scalar → Scalar
  | .number x => .number x.canonical
  | value => value

mutual

def Value.layout : Value → Layout
  | .scalar value => value.layout
  | .list items => .row (Value.itemLayouts items)
  | .record fields => .table (Value.fieldLayouts fields)

def Value.itemLayouts : List Value → List Layout
  | [] => []
  | item :: items => item.layout :: Value.itemLayouts items

def Value.fieldLayouts {lower : Option String} : Fields Value lower → List (String × Layout)
  | .nil => []
  | .cons name _ value rest => (name, value.layout) :: Value.fieldLayouts rest

end

mutual

def Pattern.layout : Pattern → Layout
  | .anyString => .word "String".toList
  | .anyNumber => .word "Number".toList
  | .anyBoolean => .word "Boolean".toList
  | .literal value => value.layout
  | .sequence element => .row [element.layout]
  | .object fields => .table (Pattern.fieldLayouts fields)
  | .undefined => .word "undefined".toList

def Pattern.fieldLayouts : List (String × Pattern) → List (String × Layout)
  | [] => []
  | (name, field) :: fields => (name, field.layout) :: Pattern.fieldLayouts fields

end

namespace Binary64

theorem toText_chars {x : Binary64} {c : Char} (member : c ∈ x.toText.toList) :
    isTextChar c = true := by
  rw [toList_toText] at member
  split at member
  · rcases List.mem_cons.mp member with rfl | member
    · rfl
    · exact (unsignedText_chars member).1
  · exact (unsignedText_chars member).1

theorem isBare_of_isTextChar {c : Char} (textChar : isTextChar c = true) :
    Text.isBare c = true := by
  rw [isTextChar, Bool.or_eq_true] at textChar
  rcases textChar with digit | letter
  · simp [Text.isBare, Char.isAlphanum, digit]
  · have letters : ['-', '.', 'N', 'a', 'i', 'n', 'f'].all Text.isBare = true := rfl
    exact List.all_eq_true.mp letters c (List.contains_iff_mem.mp letter)

theorem toText_ne_nil (x : Binary64) : x.toText.toList ≠ [] := by
  rw [toList_toText]
  split
  · exact List.cons_ne_nil _ _
  · exact unsignedText_ne_nil x

end Binary64

namespace Layout

theorem word_ne {text other : String} (apart : text ≠ other) :
    word text.toList ≠ .word other.toList :=
  fun same => apart (String.toList_inj.mp (word.inj same))

/-- The words that stand for a kind. -/
def markers : List String :=
  ["String", "Number", "Boolean", "undefined"]

/-- The words of a text that are no numbers. -/
def reserved : List String :=
  ["null", "true", "false"] ++ markers

end Layout

/-- Every reserved word has a letter that no number has. -/
theorem Binary64.toText_ne {word : String} (reserved : word ∈ Layout.reserved) (x : Binary64) :
    x.toText ≠ word := by
  have strange : Layout.reserved.all (·.toList.any (!isTextChar ·)) = true := by decide
  rintro rfl
  obtain ⟨c, member, letter⟩ := List.any_eq_true.mp (List.all_eq_true.mp strange _ reserved)
  rw [toText_chars member] at letter
  cases letter

namespace Scalar

variable {value other : Scalar}

theorem toList_toText (value : Scalar) : value.toText.toList = value.layout.chars := by
  cases value with
  | boolean value => cases value <;> rfl
  | null | number | string => rfl

theorem plain_layout (value : Scalar) : value.layout.Plain := by
  cases value with
  | null => exact .word (by decide) (by decide)
  | boolean value => cases value <;> exact .word (by decide) (by decide)
  | number x =>
    refine .word x.toText_ne_nil (List.all_eq_true.mpr fun c member => ?_)
    exact Binary64.isBare_of_isTextChar (Binary64.toText_chars member)
  | string text => exact .quoted

theorem layout_number_ne {word : String} (reserved : word ∈ Layout.reserved) (x : Binary64) :
    (number x).layout ≠ .word word.toList :=
  Layout.word_ne (Binary64.toText_ne reserved x)

theorem canonical_of_layout (same : value.layout = other.layout) :
    value.canonical = other.canonical := by
  cases value with
  | number x =>
    cases other with
    | number y =>
      have texts := String.toList_inj.mp (Layout.word.inj same)
      exact congrArg number (Binary64.toText_inj.mp texts)
    | null => exact absurd same (layout_number_ne (by decide) x)
    | boolean value => cases value <;> exact absurd same (layout_number_ne (by decide) x)
    | string => cases same
  | null =>
    cases other with
    | number x => exact absurd same.symm (layout_number_ne (by decide) x)
    | null => rfl
    | boolean value => cases value <;> exact absurd same (Layout.word_ne (by decide))
    | string => cases same
  | boolean value =>
    cases other with
    | number x => cases value <;> exact absurd same.symm (layout_number_ne (by decide) x)
    | boolean other =>
      cases value <;> cases other <;> first | rfl | exact absurd same (Layout.word_ne (by decide))
    | null => cases value <;> exact absurd same (Layout.word_ne (by decide))
    | string => cases value <;> cases same
  | string text =>
    cases other with
    | string other =>
      cases same
      rfl
    | boolean value => cases value <;> cases same
    | null | number => cases same

theorem layout_canonical (value : Scalar) : value.canonical.layout = value.layout := by
  cases value with
  | number x => exact congrArg (fun text : String => Layout.word text.toList) x.toText_canonical
  | null | boolean | string => rfl

theorem layout_ne_row (value : Scalar) (items : List Layout) : value.layout ≠ .row items := by
  intro same
  cases value with
  | boolean value => cases value <;> cases same
  | null | number | string => cases same

theorem layout_ne_table (value : Scalar) (entries : List (String × Layout)) :
    value.layout ≠ .table entries := by
  intro same
  cases value with
  | boolean value => cases value <;> cases same
  | null | number | string => cases same

end Scalar

/-- Elements that have the same image under one function have it under another one. -/
theorem map_eq_map_of {α β γ : Type} {f : α → β} {g : α → γ} {items others : List α}
    (each : ∀ item ∈ items, ∀ other, f item = f other → g item = g other)
    (same : items.map f = others.map f) : items.map g = others.map g := by
  induction items generalizing others with
  | nil =>
    cases others with
    | nil => rfl
    | cons other others => cases same
  | cons item items ih =>
    obtain ⟨own, behind⟩ := List.forall_mem_cons.mp each
    cases others with
    | nil => cases same
    | cons other others =>
      obtain ⟨first, later⟩ := List.cons.inj same
      rw [List.map_cons, List.map_cons, own other first, ih behind later]

theorem Fields.toList_inj {α : Type} {fields others : Fields α none} :
    fields.toList = others.toList ↔ fields = others := by
  refine ⟨fun same => ?_, congrArg toList⟩
  rw [← ofList_toList fields, same, ofList_toList]

namespace Value

variable {value other : Value}

/-- The value, with one payload for all numbers in it that are none. -/
def canonical (value : Value) : Value :=
  value.mapScalars Scalar.canonical

theorem itemLayouts_eq_map (items : List Value) : itemLayouts items = items.map layout := by
  induction items with
  | nil => rfl
  | cons item items ih => rw [itemLayouts, ih, List.map_cons]

theorem fieldLayouts_eq_map {lower : Option String} (fields : Fields Value lower) :
    fieldLayouts fields = fields.toList.map fun entry => (entry.1, entry.2.layout) := by
  induction fields with
  | nil => rfl
  | cons name above value rest ih => rw [fieldLayouts, Fields.toList, List.map_cons, ih]

theorem toList_toText (value : Value) : value.toText.toList = value.layout.chars := by
  induction value with
  | scalar value => exact value.toList_toText
  | list items ih =>
    rw [toText, layout, itemTexts_eq_map, itemLayouts_eq_map]
    refine (Layout.chars_row ?_).symm
    rw [List.map_map, List.map_map]
    exact List.map_congr_left ih
  | record fields ih =>
    rw [toText, layout, fieldTexts_eq_map, fieldLayouts_eq_map]
    refine (Layout.chars_table ?_).symm
    rw [List.map_map, List.map_map]
    refine List.map_congr_left fun entry member => ?_
    simp [Layout.entryText, ih entry.1 entry.2 (Fields.mem_toList_iff.mp member)]

theorem plain_layout (named : value.NamedBy Text.Identifier) : value.layout.Plain := by
  induction value with
  | scalar value => exact value.plain_layout
  | list items ih =>
    rw [layout, itemLayouts_eq_map]
    refine .row (List.forall_mem_map.mpr fun item member => ?_)
    exact ih item member (namedBy_list_iff.mp named item member)
  | record fields ih =>
    rw [layout, fieldLayouts_eq_map]
    have parts := namedBy_record_iff.mp named
    refine .table (List.forall_mem_map.mpr ?_) (List.forall_mem_map.mpr ?_)
    · rintro ⟨name, part⟩ member
      exact (parts name part (Fields.mem_toList_iff.mp member)).1
    · rintro ⟨name, part⟩ member
      have found := Fields.mem_toList_iff.mp member
      exact ih name part found (parts name part found).2

theorem canonical_list (items : List Value) :
    (list items).canonical = .list (items.map canonical) :=
  mapScalars_list Scalar.canonical items

theorem canonical_record (fields : Fields Value none) :
    (record fields).canonical = .record (fields.map canonical) :=
  mapScalars_record Scalar.canonical fields

theorem canonical_of_layout (same : value.layout = other.layout) :
    value.canonical = other.canonical := by
  induction value generalizing other with
  | scalar value =>
    cases other with
    | scalar other => exact congrArg scalar (Scalar.canonical_of_layout same)
    | list others => exact absurd same (value.layout_ne_row _)
    | record others => exact absurd same (value.layout_ne_table _)
  | list items ih =>
    cases other with
    | scalar other => exact absurd same.symm (other.layout_ne_row _)
    | list others =>
      have images := Layout.row.inj same
      rw [itemLayouts_eq_map, itemLayouts_eq_map] at images
      have parts := map_eq_map_of (fun item member _ => ih item member) images
      rw [canonical_list, canonical_list, parts]
    | record others => cases same
  | record fields ih =>
    cases other with
    | scalar other => exact absurd same.symm (other.layout_ne_table _)
    | list others => cases same
    | record others =>
      have images := Layout.table.inj same
      rw [fieldLayouts_eq_map, fieldLayouts_eq_map] at images
      have entries : (fields.map canonical).toList = (others.map canonical).toList := by
        rw [Fields.toList_map, Fields.toList_map]
        refine map_eq_map_of (fun entry member other same => ?_) images
        obtain ⟨names, parts⟩ := Prod.mk.inj same
        have found := Fields.mem_toList_iff.mp member
        exact Prod.ext names (ih entry.1 entry.2 found parts)
      rw [canonical_record, canonical_record, Fields.toList_inj.mp entries]

theorem layout_canonical (value : Value) : value.canonical.layout = value.layout := by
  induction value with
  | scalar value => exact value.layout_canonical
  | list items ih =>
    rw [canonical_list, layout, layout, itemLayouts_eq_map, itemLayouts_eq_map, List.map_map]
    exact congrArg Layout.row (List.map_congr_left ih)
  | record fields ih =>
    rw [canonical_record, layout, layout, fieldLayouts_eq_map, fieldLayouts_eq_map,
      Fields.toList_map, List.map_map]
    refine congrArg Layout.table (List.map_congr_left fun entry member => ?_)
    exact Prod.ext rfl (ih entry.1 entry.2 (Fields.mem_toList_iff.mp member))

/-- With identifiers for names the text of a value shows the value, up to which of the numbers that
are none its numbers are. -/
theorem toText_inj (named : value.NamedBy Text.Identifier)
    (namedToo : other.NamedBy Text.Identifier) :
    value.toText = other.toText ↔ value.canonical = other.canonical := by
  rw [← String.toList_inj, toList_toText, toList_toText,
    (plain_layout named).chars_inj (plain_layout namedToo)]
  exact ⟨canonical_of_layout, fun same => by rw [← layout_canonical, same, layout_canonical]⟩

end Value

namespace Pattern

variable {pattern other : Pattern}

/-- The pattern, with one payload for all literal numbers in it that are none. -/
def canonical (pattern : Pattern) : Pattern :=
  pattern.mapLiterals Scalar.canonical

theorem fieldLayouts_eq_map (fields : List (String × Pattern)) :
    fieldLayouts fields = fields.map fun entry => (entry.1, entry.2.layout) := by
  induction fields with
  | nil => rfl
  | cons entry fields ih => rw [fieldLayouts, ih, List.map_cons]

theorem toList_toText (pattern : Pattern) : pattern.toText.toList = pattern.layout.chars := by
  induction pattern with
  | anyString | anyNumber | anyBoolean | undefined => rfl
  | literal value => exact value.toList_toText
  | sequence element ih =>
    have single : ", ".intercalate [element.toText] = element.toText :=
      String.intercalate_singleton
    rw [toText, layout, ← single]
    refine (Layout.chars_row ?_).symm
    rw [List.map_singleton, List.map_singleton, ih]
  | object fields ih =>
    rw [toText, layout, fieldTexts_eq_map, fieldLayouts_eq_map]
    refine (Layout.chars_table ?_).symm
    rw [List.map_map, List.map_map]
    refine List.map_congr_left fun entry declared => ?_
    simp [Layout.entryText, ih entry.1 entry.2 declared]

theorem plain_layout (named : pattern.NamedBy Text.Identifier) : pattern.layout.Plain := by
  induction pattern with
  | anyString | anyNumber | anyBoolean | undefined => exact .word (by decide) (by decide)
  | literal value => exact value.plain_layout
  | sequence element ih =>
    exact .row (List.forall_mem_singleton.mpr (ih (namedBy_sequence_iff.mp named)))
  | object fields ih =>
    rw [layout, fieldLayouts_eq_map]
    have parts := namedBy_object_iff.mp named
    refine .table (List.forall_mem_map.mpr ?_) (List.forall_mem_map.mpr ?_)
    · exact fun entry declared => (parts entry declared).1
    · exact fun entry declared => ih entry.1 entry.2 declared (parts entry declared).2

theorem canonical_object (fields : List (String × Pattern)) :
    (object fields).canonical =
      .object (fields.map fun entry => (entry.1, entry.2.canonical)) :=
  mapLiterals_object Scalar.canonical fields

/-- No literal is laid out like a marker. -/
theorem layout_literal_ne {marker : String} (value : Scalar) (listed : marker ∈ Layout.markers) :
    (literal value).layout ≠ .word marker.toList := by
  cases value with
  | null => exact (Layout.word_ne (ne_of_mem_of_not_mem listed (by decide))).symm
  | boolean value =>
    cases value with
    | true | false => exact (Layout.word_ne (ne_of_mem_of_not_mem listed (by decide))).symm
  | number x => exact Scalar.layout_number_ne (List.mem_append_right _ listed) x
  | string text =>
    intro same
    cases same

theorem canonical_of_layout (same : pattern.layout = other.layout) :
    pattern.canonical = other.canonical := by
  induction pattern generalizing other with
  | anyString | anyNumber | anyBoolean | undefined =>
    cases other with
    | literal value => exact absurd same.symm (layout_literal_ne value (by decide))
    | anyString | anyNumber | anyBoolean | undefined =>
      first | rfl | exact absurd same (Layout.word_ne (by decide))
    | sequence | object => cases same
  | literal value =>
    cases other with
    | literal other => exact congrArg literal (Scalar.canonical_of_layout same)
    | sequence element => exact absurd same (value.layout_ne_row _)
    | object fields => exact absurd same (value.layout_ne_table _)
    | anyString | anyNumber | anyBoolean | undefined =>
      exact absurd same (layout_literal_ne value (by decide))
  | sequence element ih =>
    cases other with
    | sequence other => exact congrArg sequence (ih (List.singleton_inj.mp (Layout.row.inj same)))
    | literal other => exact absurd same.symm (other.layout_ne_row _)
    | anyString | anyNumber | anyBoolean | object | undefined => cases same
  | object fields ih =>
    cases other with
    | object others =>
      have images := Layout.table.inj same
      rw [fieldLayouts_eq_map, fieldLayouts_eq_map] at images
      rw [canonical_object, canonical_object]
      refine congrArg object (map_eq_map_of (fun entry declared other same => ?_) images)
      obtain ⟨names, parts⟩ := Prod.mk.inj same
      exact Prod.ext names (ih entry.1 entry.2 declared parts)
    | literal other => exact absurd same.symm (other.layout_ne_table _)
    | anyString | anyNumber | anyBoolean | sequence | undefined => cases same

theorem layout_canonical (pattern : Pattern) : pattern.canonical.layout = pattern.layout := by
  induction pattern with
  | anyString | anyNumber | anyBoolean | undefined => rfl
  | literal value => exact value.layout_canonical
  | sequence element ih => exact congrArg (fun layout => Layout.row [layout]) ih
  | object fields ih =>
    rw [canonical_object, layout, layout, fieldLayouts_eq_map, fieldLayouts_eq_map, List.map_map]
    refine congrArg Layout.table (List.map_congr_left fun entry declared => ?_)
    exact Prod.ext rfl (ih entry.1 entry.2 declared)

/-- With identifiers for names the text of a pattern shows the pattern, up to which of the numbers
that are none its literals are. -/
theorem toText_inj (named : pattern.NamedBy Text.Identifier)
    (namedToo : other.NamedBy Text.Identifier) :
    pattern.toText = other.toText ↔ pattern.canonical = other.canonical := by
  rw [← String.toList_inj, toList_toText, toList_toText,
    (plain_layout named).chars_inj (plain_layout namedToo)]
  exact ⟨canonical_of_layout, fun same => by rw [← layout_canonical, same, layout_canonical]⟩

end Pattern

/-- With identifiers for names, a text shows the whole value or the whole pattern, fields in their
order and repeated ones included, and leaves open only which of the numbers that are none it was. -/
theorem toText_unambiguous :
    (∀ value other : Value, value.NamedBy Text.Identifier → other.NamedBy Text.Identifier →
      (value.toText = other.toText ↔ value.canonical = other.canonical)) ∧
    (∀ pattern other : Pattern, pattern.NamedBy Text.Identifier → other.NamedBy Text.Identifier →
      (pattern.toText = other.toText ↔ pattern.canonical = other.canonical)) ∧
    ∀ marker ∈ [Pattern.anyString, .anyNumber, .anyBoolean, .undefined], ∀ value : Scalar,
      marker.toText ≠ (Pattern.literal value).toText := by
  refine ⟨fun _ _ => Value.toText_inj, fun _ _ => Pattern.toText_inj, ?_⟩
  intro marker member value same
  have literal : (Pattern.literal value).NamedBy Text.Identifier :=
    Pattern.namedBy_of_leaf nofun nofun
  simp only [List.mem_cons, List.not_mem_nil, or_false] at member
  have named : marker.NamedBy Text.Identifier := by
    rcases member with rfl | rfl | rfl | rfl <;> exact Pattern.namedBy_of_leaf nofun nofun
  have whole := (Pattern.toText_inj named literal).mp same
  rcases member with rfl | rfl | rfl | rfl <;> cases whole

/-- Separators inside quotes, the sign of zero and repeated fields are seen, a payload is not. -/
theorem toText_unambiguous_quoted :
    (Value.ofPairs [("a_1", .list [.number .nan, .string "1, b: 2"])]).toText =
      (Value.ofPairs [("a_1", .list [.number ⟨true, 0x7ff0000000000001, by decide⟩,
        .string "1, b: 2"])]).toText ∧
    (Value.list [.number .zero]).toText ≠ (Value.list [.number .negativeZero]).toText ∧
    (Pattern.object [("a", .null), ("a", .string "null")]).toText ≠
      (Pattern.object [("a", .string "null"), ("a", .null)]).toText := by
  obtain ⟨values, patterns, _⟩ := toText_unambiguous
  have name : Text.Identifier "a" := by decide
  have longer : Text.Identifier "a_1" := by decide
  have lists : ∀ contents : List Scalar,
      (Value.list (contents.map .scalar)).NamedBy Text.Identifier :=
    fun contents => Value.namedBy_list_iff.mpr
      (List.forall_mem_map.mpr fun content _ => Value.namedBy_scalar content)
  have objects : ∀ literals : List Scalar,
      (Pattern.object (literals.map fun value => ("a", .literal value))).NamedBy Text.Identifier :=
    fun literals => Pattern.namedBy_object_iff.mpr (List.forall_mem_map.mpr fun value _ =>
      ⟨name, Pattern.namedBy_of_leaf nofun nofun⟩)
  have records : ∀ contents : List Scalar,
      (Value.ofPairs [("a_1", .list (contents.map .scalar))]).NamedBy Text.Identifier :=
    fun contents =>
      Value.namedBy_ofPairs (List.forall_mem_singleton.mpr ⟨longer, lists contents⟩)
  refine ⟨?payload, ?sign, ?order⟩
  case payload =>
    exact (values _ _ (records [.number .nan, .string "1, b: 2"])
      (records [.number ⟨true, 0x7ff0000000000001, _⟩, .string "1, b: 2"])).mpr rfl
  case sign =>
    intro same
    cases (values _ _ (lists [.number .zero]) (lists [.number .negativeZero])).mp same
  case order =>
    intro same
    cases (patterns _ _ (objects [.null, .string "null"]) (objects [.string "null", .null])).mp same

end Conform
