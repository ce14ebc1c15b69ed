import Conform.Proofs.Offence
import Mathlib.Logic.Equiv.Defs

/-!
Templates and values say the same: a value whose lists have one item each is read as a pattern of
literals with its fields in name order, and every such pattern is read back as that value.
-/

namespace Conform

namespace Pattern

/-- Patterns made of literals, of sequences, and of objects whose fields are in name order. -/
inductive LiteralShaped : Pattern → Prop where
  | literal {value : Scalar} : LiteralShaped (.literal value)
  | sequence {element : Pattern} (inner : LiteralShaped element) :
      LiteralShaped (.sequence element)
  | object {fields : List (String × Pattern)} (ordered : InNameOrder fields)
      (inner : ∀ name field, (name, field) ∈ fields → LiteralShaped field) :
      LiteralShaped (.object fields)

mutual

/-- A pattern read as a value: an object as a record, a sequence as a list of one item. What stands
for values of many kinds, or for none, is not read. -/
def toValue? : Pattern → Option Value
  | .literal value => return .scalar value
  | .sequence element => return .list [← element.toValue?]
  | .object fields => return .ofPairs (← toPairs? fields)
  | .anyString | .anyNumber | .anyBoolean | .undefined => none

def toPairs? : List (String × Pattern) → Option (List (String × Value))
  | [] => return []
  | (name, field) :: fields => do
    let value ← field.toValue?
    let pairs ← toPairs? fields
    return (name, value) :: pairs

end

variable {value : Value} {pattern : Pattern} {lower : Option String} {fields : Fields Value lower}
  {declared : List (String × Pattern)}

theorem names_of_ofTemplateFields (template : ofTemplateFields fields = .ok declared) :
    declared.map Prod.fst = fields.toList.map Prod.fst := by
  induction fields generalizing declared with
  | nil =>
    cases template
    rfl
  | cons name above value rest ih =>
    obtain ⟨field, _, others, behind, rfl⟩ := ofTemplateFields_cons_eq_ok_iff.mp template
    rw [Fields.toList, List.map_cons, List.map_cons, ih behind]

theorem toPairs?_of_ofTemplateFields (template : ofTemplateFields fields = .ok declared)
    (parts : ∀ name part, fields.find? name = some part → ∀ field, ofTemplate part = .ok field →
      field.toValue? = some part) : toPairs? declared = some fields.toList := by
  induction fields generalizing declared with
  | nil =>
    cases template
    rfl
  | cons name above value rest ih =>
    obtain ⟨field, own, others, behind, rfl⟩ := ofTemplateFields_cons_eq_ok_iff.mp template
    obtain ⟨first, later⟩ := Fields.forall_find?_cons.mp parts
    rw [toPairs?, first field own, ih behind later]
    rfl

/-- The template of a value is made of literals and is read back as the value. -/
theorem literalShaped_of_ofTemplate (template : ofTemplate value = .ok pattern) :
    pattern.LiteralShaped ∧ pattern.toValue? = some value := by
  induction value generalizing pattern with
  | scalar value =>
    cases template
    exact ⟨.literal, rfl⟩
  | list items ih =>
    obtain ⟨item, element, rfl, inner, rfl⟩ := ofTemplate_list_eq_ok_iff.mp template
    obtain ⟨shaped, read⟩ := ih item List.mem_cons_self inner
    refine ⟨.sequence shaped, ?_⟩
    rw [toValue?, read]
    rfl
  | record fields ih =>
    obtain ⟨declared, inner, rfl⟩ := ofTemplate_record_eq_ok_iff.mp template
    constructor
    · refine .object (fields.inNameOrder_toList.of_names (names_of_ofTemplateFields inner)) ?_
      refine (forall_ofTemplateFields inner).mpr ?_
      intro name part found
      obtain ⟨field, own⟩ := exists_ofTemplate_of_find? template found
      exact ⟨field, own, (ih name part found own).1⟩
    · have pairs := toPairs?_of_ofTemplateFields inner fun name part found field own =>
        (ih name part found own).2
      rw [toValue?, pairs]
      exact congrArg (fun fields => some (Value.record fields)) (Fields.ofList_toList fields)

/-- Where every field is the template of a value, the fields are the templates of pairs. -/
theorem exists_pairs_of_ofTemplate
    (parts : ∀ name field, (name, field) ∈ declared → ∃ value, ofTemplate value = .ok field) :
    ∃ pairs : List (String × Value), pairs.map Prod.fst = declared.map Prod.fst ∧
      (pairs.mapM fun pair => do return (pair.1, ← ofTemplate pair.2)) = .ok declared := by
  induction declared with
  | nil => exact ⟨[], rfl, rfl⟩
  | cons entry declared ih =>
    obtain ⟨name, field⟩ := entry
    obtain ⟨own, others⟩ := forall_field_cons.mp parts
    obtain ⟨value, template⟩ := own
    obtain ⟨pairs, names, templates⟩ := ih others
    refine ⟨(name, value) :: pairs, ?_, ?_⟩
    · rw [List.map_cons, List.map_cons, names]
    · rw [List.mapM_cons, templates, template]
      rfl

/-- Every pattern of literals is the template of a value. -/
theorem exists_ofTemplate_of_literalShaped (shaped : pattern.LiteralShaped) :
    ∃ value, ofTemplate value = .ok pattern := by
  induction shaped with
  | @literal value => exact ⟨.scalar value, rfl⟩
  | sequence inner ih =>
    obtain ⟨item, template⟩ := ih
    refine ⟨.list [item], ?_⟩
    rw [ofTemplate, template]
    rfl
  | object ordered inner ih =>
    obtain ⟨pairs, names, templates⟩ := exists_pairs_of_ofTemplate ih
    have listed := Fields.toList_ofList_of_inNameOrder (ordered.of_names names)
    refine ⟨.ofPairs pairs, ?_⟩
    rw [Value.ofPairs, ofTemplate, ofTemplateFields_eq_mapM, listed, templates]
    rfl

/-- A pattern is the template of a value when it is made of literals and read back as the value. -/
theorem ofTemplate_eq_ok_iff :
    ofTemplate value = .ok pattern ↔ pattern.LiteralShaped ∧ pattern.toValue? = some value := by
  constructor
  · exact literalShaped_of_ofTemplate
  · intro ⟨shaped, read⟩
    obtain ⟨original, template⟩ := exists_ofTemplate_of_literalShaped shaped
    have same := (literalShaped_of_ofTemplate template).2
    rw [read] at same
    rw [Option.some.inj same, template]

theorem isSome_ofTemplate (single : value.SingleItems) : (ofTemplate value).toOption.isSome := by
  obtain ⟨pattern, template⟩ := exists_ofTemplate_iff.mpr single
  rw [template]
  rfl

theorem isSome_toValue? (shaped : pattern.LiteralShaped) : pattern.toValue?.isSome := by
  obtain ⟨value, template⟩ := exists_ofTemplate_of_literalShaped shaped
  rw [(ofTemplate_eq_ok_iff.mp template).2]
  rfl

/-- The template of a value without offences. -/
def templateOf (value : Value) (single : value.SingleItems) : Pattern :=
  (ofTemplate value).toOption.get (isSome_ofTemplate single)

/-- The value that a pattern of literals is the template of. -/
def toValue (pattern : Pattern) (shaped : pattern.LiteralShaped) : Value :=
  pattern.toValue?.get (isSome_toValue? shaped)

theorem ofTemplate_eq_templateOf (single : value.SingleItems) :
    ofTemplate value = .ok (templateOf value single) := by
  obtain ⟨pattern, template⟩ := exists_ofTemplate_iff.mpr single
  simp only [templateOf, template]
  rfl

theorem toValue?_eq_toValue (shaped : pattern.LiteralShaped) :
    pattern.toValue? = some (pattern.toValue shaped) :=
  (Option.some_get _).symm

theorem literalShaped_templateOf (single : value.SingleItems) :
    (templateOf value single).LiteralShaped :=
  (ofTemplate_eq_ok_iff.mp (ofTemplate_eq_templateOf single)).1

theorem ofTemplate_toValue (shaped : pattern.LiteralShaped) :
    ofTemplate (pattern.toValue shaped) = .ok pattern :=
  ofTemplate_eq_ok_iff.mpr ⟨shaped, toValue?_eq_toValue shaped⟩

theorem singleItems_toValue (shaped : pattern.LiteralShaped) :
    (pattern.toValue shaped).SingleItems :=
  exists_ofTemplate_iff.mp ⟨pattern, ofTemplate_toValue shaped⟩

/-- What is read back from the template of a value is the value, -/
theorem toValue_templateOf (single : value.SingleItems) :
    (templateOf value single).toValue (literalShaped_templateOf single) = value := by
  have read := (ofTemplate_eq_ok_iff.mp (ofTemplate_eq_templateOf single)).2
  rw [toValue?_eq_toValue (literalShaped_templateOf single)] at read
  exact Option.some.inj read

/-- and the template of what is read back from a pattern is the pattern. -/
theorem templateOf_toValue (shaped : pattern.LiteralShaped) :
    templateOf (pattern.toValue shaped) (singleItems_toValue shaped) = pattern := by
  have again := ofTemplate_toValue shaped
  rw [ofTemplate_eq_templateOf (singleItems_toValue shaped)] at again
  exact Except.ok.inj again

/-- Making templates and reading them back, as functions that undo each other. -/
def templateEquiv :
    {value : Value // value.SingleItems} ≃ {pattern : Pattern // pattern.LiteralShaped} where
  toFun value := ⟨templateOf value.1 value.2, literalShaped_templateOf value.2⟩
  invFun pattern := ⟨pattern.1.toValue pattern.2, singleItems_toValue pattern.2⟩
  left_inv value := Subtype.ext (toValue_templateOf value.2)
  right_inv pattern := Subtype.ext (templateOf_toValue pattern.2)

/-- Making templates is a bijection from the values whose lists have one item each onto the patterns
of literals, reading back is its inverse, and no other pattern is the template of any value. -/
theorem ofTemplate_bijective :
    (∀ value, ofTemplate value.1 = .ok (templateEquiv value).1) ∧
      (∀ pattern, pattern.1.toValue? = some (templateEquiv.symm pattern).1) ∧
      ∀ value pattern, ofTemplate value = .ok pattern ↔
        pattern.LiteralShaped ∧ pattern.toValue? = some value := by
  refine ⟨?_, ?_, ?_⟩
  · intro value
    exact ofTemplate_eq_templateOf value.2
  · intro pattern
    exact toValue?_eq_toValue pattern.2
  · intro value pattern
    exact ofTemplate_eq_ok_iff

end Pattern

end Conform
