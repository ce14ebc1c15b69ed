import Conform.Pattern.Text
import Conform.Proofs.NameOrder
import Conform.Proofs.Template
import Conform.Value.Text

/-!
Templates are written as their values. A record is written in name order and an object in the order
of its declaration, which for a template is the same.
-/

namespace Conform

namespace Value

theorem itemTexts_eq_map (items : List Value) : itemTexts items = items.map toText := by
  induction items with
  | nil => rfl
  | cons item items ih => rw [itemTexts, ih, List.map_cons]

theorem fieldTexts_eq_map {lower : Option String} (fields : Fields Value lower) :
    fieldTexts fields = fields.toList.map fun entry => entry.1 ++ ": " ++ entry.2.toText := by
  induction fields with
  | nil => rfl
  | cons name above value rest ih => rw [fieldTexts, Fields.toList, List.map_cons, ih]

/-- In whatever order the entries of a record come, they are written in the order of the bytes of
their names. -/
theorem toText_ofPairs {entries : List (String × Value)}
    (distinct : (entries.map Prod.fst).Nodup) :
    (ofPairs entries).toText = "\x7b" ++ ", ".intercalate
      ((sortedByName entries).map fun entry => entry.1 ++ ": " ++ entry.2.toText) ++ "\x7d" := by
  rw [ofPairs, toText, fieldTexts_eq_map, Fields.toList_ofList distinct]

end Value

namespace Pattern

variable {value : Value} {pattern : Pattern}

theorem fieldTexts_eq_map (fields : List (String × Pattern)) :
    fieldTexts fields = fields.map fun entry => entry.1 ++ ": " ++ entry.2.toText := by
  induction fields with
  | nil => rfl
  | cons entry fields ih => rw [fieldTexts, ih, List.map_cons]

/-- The fields of a template are written like those of the record, where their patterns are. -/
theorem fieldTexts_ofTemplateFields {lower : Option String} {fields : Fields Value lower}
    {declared : List (String × Pattern)} (template : ofTemplateFields fields = .ok declared)
    (parts : ∀ name part, fields.find? name = some part → ∀ field, ofTemplate part = .ok field →
      field.toText = part.toText) :
    fieldTexts declared = Value.fieldTexts fields := by
  induction fields generalizing declared with
  | nil =>
    cases template
    rfl
  | cons name above value rest ih =>
    obtain ⟨field, own, others, behind, rfl⟩ := ofTemplateFields_cons_eq_ok_iff.mp template
    obtain ⟨first, later⟩ := Fields.forall_find?_cons.mp parts
    rw [fieldTexts, Value.fieldTexts, first field own, ih behind later]

/-- A template is written as its value, at whatever depth and for all numbers and texts. -/
theorem toText_ofTemplate (template : ofTemplate value = .ok pattern) :
    pattern.toText = value.toText := by
  induction value generalizing pattern with
  | scalar value =>
    cases template
    rfl
  | list items ih =>
    obtain ⟨item, element, rfl, inner, rfl⟩ := ofTemplate_list_eq_ok_iff.mp template
    have same := ih item List.mem_cons_self inner
    rw [toText, Value.toText, Value.itemTexts, Value.itemTexts, String.intercalate_singleton, same]
  | record fields ih =>
    obtain ⟨declared, inner, rfl⟩ := ofTemplate_record_eq_ok_iff.mp template
    have same := fieldTexts_ofTemplateFields inner fun name part found field own =>
      ih name part found own
    rw [toText, Value.toText, same]

theorem toText_ofTemplate_nested :
    ∃ pattern, ofTemplate (.ofPairs [("b", .list [.list [.number .nan]]),
        ("c", .number .infinity),
        ("a", .ofPairs [("-", .number .negativeZero), ("", .string "\"")])]) = .ok pattern ∧
      pattern.toText = "\x7ba: \x7b: \"\\\"\", -: -0\x7d, b: [[NaN]], c: inf\x7d" := by
  refine ⟨?pattern, ?template, (toText_ofTemplate ?template).trans ?text⟩
  case template => exact rfl
  case text => decide

end Pattern

end Conform
