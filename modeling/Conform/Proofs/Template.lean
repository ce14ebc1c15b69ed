import Conform.Pattern.Template
import Conform.Proofs.Acceptance
import Conform.Proofs.Equality

/-!
Templates and equality. Acceptance is open: an object has further fields, a list any number of
items. Two templates that accept each other's value leave no room for either.
-/

namespace Conform

namespace Pattern

variable {value other : Value} {pattern counterpart : Pattern} {items : List Value}

private theorem bind_eq_ok_iff {ε α β : Type} {first : Except ε α} {next : α → Except ε β}
    {result : β} :
    first >>= next = .ok result ↔ ∃ own, first = .ok own ∧ next own = .ok result := by
  cases first <;> simp [bind, Except.bind]

private theorem pure_eq_ok_iff {ε α : Type} {result other : α} :
    (pure result : Except ε α) = .ok other ↔ other = result := by
  simp [pure, Except.pure, eq_comm]

private theorem throw_ne_ok {ε α : Type} {problem : ε} {result : α} :
    (throw problem : Except ε α) ≠ .ok result := by
  simp [throw, throwThe, MonadExceptOf.throw]

theorem ofTemplate_list_eq_ok_iff :
    ofTemplate (.list items) = .ok pattern ↔
      ∃ item element, items = [item] ∧ ofTemplate item = .ok element ∧
        pattern = .sequence element := by
  match items with
  | [] => simp [ofTemplate, throw_ne_ok]
  | [item] =>
    rw [ofTemplate, bind_eq_ok_iff]
    simp only [pure_eq_ok_iff, List.cons.injEq, and_true, exists_and_left, exists_eq_left']
  | item :: next :: rest => simp [ofTemplate, throw_ne_ok]

theorem ofTemplate_record_eq_ok_iff {fields : Fields Value none} :
    ofTemplate (.record fields) = .ok pattern ↔
      ∃ declared, ofTemplateFields fields = .ok declared ∧ pattern = .object declared := by
  simp only [ofTemplate, bind_eq_ok_iff, pure_eq_ok_iff]

theorem ofTemplateFields_cons_eq_ok_iff {lower : Option String} {name : String}
    {above : Above lower name} {rest : Fields Value (some name)}
    {declared : List (String × Pattern)} :
    ofTemplateFields (.cons name above value rest) = .ok declared ↔
      ∃ field, ofTemplate value = .ok field ∧ ∃ others, ofTemplateFields rest = .ok others ∧
        declared = (name, field) :: others := by
  simp only [ofTemplateFields, bind_eq_ok_iff, pure_eq_ok_iff]

/-- No template asks for a field to be left out. -/
theorem isUndefined_ofTemplate (template : ofTemplate value = .ok pattern) :
    pattern.isUndefined = false := by
  cases value with
  | scalar value =>
    cases template
    rfl
  | list items =>
    obtain ⟨item, element, _, _, rfl⟩ := ofTemplate_list_eq_ok_iff.mp template
    rfl
  | record fields =>
    obtain ⟨declared, _, rfl⟩ := ofTemplate_record_eq_ok_iff.mp template
    rfl

/-- The template of a record declares every field of it with the template of the field. -/
theorem forall_ofTemplateFields {lower : Option String} {fields : Fields Value lower}
    {declared : List (String × Pattern)} {holds : String → Pattern → Prop}
    (template : ofTemplateFields fields = .ok declared) :
    (∀ name field, (name, field) ∈ declared → holds name field) ↔
      ∀ name part, fields.find? name = some part →
        ∃ field, ofTemplate part = .ok field ∧ holds name field := by
  induction fields generalizing declared with
  | nil =>
    cases template
    simp [Fields.find?]
  | cons entry above part rest ih =>
    obtain ⟨field, own, others, behind, rfl⟩ := ofTemplateFields_cons_eq_ok_iff.mp template
    rw [forall_field_cons, ih behind]
    constructor
    · rintro ⟨here, later⟩ name value found
      rcases Fields.find?_cons_eq_some_iff.mp found with ⟨rfl, rfl⟩ | found
      · exact ⟨field, own, here⟩
      · exact later name value found
    · intro all
      constructor
      · obtain ⟨same, template, here⟩ :=
          all entry part (Fields.find?_cons_eq_some_iff.mpr (.inl ⟨rfl, rfl⟩))
        cases own.symm.trans template
        exact here
      · intro name value found
        exact all name value (Fields.find?_cons_eq_some_iff.mpr (.inr found))

/-- Every part of a template is a template. -/
theorem exists_ofTemplate_of_find? {fields : Fields Value none} {name : String} {part : Value}
    (template : ofTemplate (.record fields) = .ok pattern)
    (found : fields.find? name = some part) : ∃ field, ofTemplate part = .ok field := by
  obtain ⟨declared, inner, _⟩ := ofTemplate_record_eq_ok_iff.mp template
  have all := (forall_ofTemplateFields inner).mp fun _ _ _ => trivial
  obtain ⟨field, own, _⟩ := all name part found
  exact ⟨field, own⟩

theorem accepts_template_list_iff (template : ofTemplate (.list items) = .ok pattern) :
    pattern.accepts other = true ↔
      ∃ others, other = .list others ∧ ∀ item ∈ items, ∃ element, ofTemplate item = .ok element ∧
        ∀ own ∈ others, element.accepts own = true := by
  obtain ⟨item, element, rfl, inner, rfl⟩ := ofTemplate_list_eq_ok_iff.mp template
  cases other with
  | list others => simp [accepts_list_iff, inner]
  | scalar | record => simp [accepts]

theorem accepts_template_record_iff {fields : Fields Value none}
    (template : ofTemplate (.record fields) = .ok pattern) :
    pattern.accepts other = true ↔
      other.isPrimitive = false ∧ ∀ name part, fields.find? name = some part →
        ∃ field, ofTemplate part = .ok field ∧
          ∃ own, other.member? name = some own ∧ field.accepts own = true := by
  obtain ⟨declared, inner, rfl⟩ := ofTemplate_record_eq_ok_iff.mp template
  rw [accepts_object_iff, forall_ofTemplateFields inner]
  refine and_congr_right fun _ => forall₃_congr fun name part found => ?_
  refine exists_congr fun field => and_congr_right fun own => ?_
  exact and_iff_right (isUndefined_ofTemplate own)

/-- Records are compared by the templates of their parts: either object asks for every name of its
own record, so together they leave no name out. -/
theorem equal_record_iff_accepts_each_other {fields others : Fields Value none}
    (template : ofTemplate (.record fields) = .ok pattern)
    (otherTemplate : ofTemplate (.record others) = .ok counterpart)
    (parts : ∀ name part own field image, fields.find? name = some part →
      ofTemplate part = .ok field → ofTemplate own = .ok image →
        (part.equal own = true ↔ field.accepts own = true ∧ image.accepts part = true)) :
    (Value.record fields).equal (.record others) = true ↔
      pattern.accepts (.record others) = true ∧ counterpart.accepts (.record fields) = true := by
  rw [Value.equal_record_iff, Fields.sameNames_iff, accepts_template_record_iff template,
    accepts_template_record_iff otherTemplate]
  constructor
  · rintro ⟨⟨left, right⟩, equal⟩
    have each : ∀ name part own, fields.find? name = some part → others.find? name = some own →
        ∃ field image, ofTemplate part = .ok field ∧ ofTemplate own = .ok image ∧
          field.accepts own = true ∧ image.accepts part = true := by
      intro name part own found there
      obtain ⟨field, inner⟩ := exists_ofTemplate_of_find? template found
      obtain ⟨image, otherInner⟩ := exists_ofTemplate_of_find? otherTemplate there
      have accepted := (parts name part own field image found inner otherInner).mp
        (equal name part own found there)
      exact ⟨field, image, inner, otherInner, accepted⟩
    refine ⟨⟨rfl, ?left⟩, rfl, ?right⟩
    case left =>
      intro name part found
      obtain ⟨own, there⟩ := left name part found
      obtain ⟨field, _, inner, _, accepted, _⟩ := each name part own found there
      exact ⟨field, inner, own, there, accepted⟩
    case right =>
      intro name own there
      obtain ⟨part, found⟩ := right name own there
      obtain ⟨_, image, _, otherInner, _, accepted⟩ := each name part own found there
      exact ⟨image, otherInner, part, found, accepted⟩
  · rintro ⟨⟨_, left⟩, _, right⟩
    refine ⟨⟨?_, ?_⟩, ?_⟩
    · intro name part found
      obtain ⟨_, _, own, there, _⟩ := left name part found
      exact ⟨own, there⟩
    · intro name own there
      obtain ⟨_, _, part, found, _⟩ := right name own there
      exact ⟨part, found⟩
    · intro name part own found there
      obtain ⟨field, inner, _, thereToo, accepted⟩ := left name part found
      obtain ⟨image, otherInner, _, foundToo, acceptedToo⟩ := right name own there
      cases there.symm.trans thereToo
      cases found.symm.trans foundToo
      have decided := parts name part own field image found inner otherInner
      exact decided.mpr ⟨accepted, acceptedToo⟩

/-- Values are equal when each is accepted by the template of the other. One way is not enough: a
list can be accepted by the template of a record. -/
theorem equal_iff_accepts_each_other (template : ofTemplate value = .ok pattern)
    (otherTemplate : ofTemplate other = .ok counterpart) :
    value.equal other = true ↔
      pattern.accepts other = true ∧ counterpart.accepts value = true := by
  induction value generalizing other pattern counterpart with
  | scalar value =>
    cases template
    cases other with
    | scalar other =>
      cases otherTemplate
      simp [Value.equal, accepts, Scalar.equalsValue, Scalar.equal_comm other value]
    | list | record => simp [Value.equal, accepts, Scalar.equalsValue]
  | list items ih =>
    cases other with
    | list others =>
      obtain ⟨item, element, rfl, inner, rfl⟩ := ofTemplate_list_eq_ok_iff.mp template
      obtain ⟨own, image, rfl, otherInner, rfl⟩ := ofTemplate_list_eq_ok_iff.mp otherTemplate
      have first := ih item List.mem_cons_self inner otherInner
      simp [Value.equal_list_iff, accepts_list_iff, first]
    | scalar | record => simp [Value.equal, accepts_template_list_iff template]
  | record fields ih =>
    cases other with
    | scalar other =>
      simp [Value.equal, accepts_template_record_iff template, Value.isPrimitive]
    | list others => simp [Value.equal, accepts_template_list_iff otherTemplate]
    | record others =>
      apply equal_record_iff_accepts_each_other template otherTemplate
      intro name part own field image found inner otherInner
      exact ih name part found inner otherInner

/-- Templates tell values apart: two values are equal when each is accepted by the template of the
other, so the template of a value accepts it when it equals itself, as it does without NaN. -/
theorem ofTemplate_identifies (template : ofTemplate value = .ok pattern)
    (otherTemplate : ofTemplate other = .ok counterpart) :
    (value.equal other = true ↔
        pattern.accepts other = true ∧ counterpart.accepts value = true) ∧
      (pattern.accepts value = true ↔ value.equal value = true) ∧
      (value.equal value = true ↔ value.WithoutNaN) := by
  have own := equal_iff_accepts_each_other template template
  rw [and_self] at own
  exact ⟨equal_iff_accepts_each_other template otherTemplate, own.symm, value.equal_self_iff⟩

/-- The template of a record accepts a list whose items stand under the same names, and the two are
told apart by the other direction. -/
theorem ofTemplate_identifies_index :
    ofTemplate (.ofPairs [("0", .ofInt 7)]) = .ok (object [("0", .ofInt 7)]) ∧
      ofTemplate (.list [.ofInt 7]) = .ok (sequence (.ofInt 7)) ∧
      (object [("0", .ofInt 7)]).accepts (.list [.ofInt 7]) = true ∧
      (Value.ofPairs [("0", .ofInt 7)]).equal (.list [.ofInt 7]) = false ∧
      (Value.ofPairs [("0", .ofInt 7)]).WithoutNaN := by
  have template : ofTemplate (.ofPairs [("0", .ofInt 7)]) = .ok (object [("0", .ofInt 7)]) := rfl
  have otherTemplate : ofTemplate (.list [.ofInt 7]) = .ok (sequence (.ofInt 7)) := rfl
  obtain ⟨told, own, whole⟩ := ofTemplate_identifies template otherTemplate
  refine ⟨template, otherTemplate, by decide, ?_, whole.mp (own.mp (by decide))⟩
  rw [Bool.eq_false_iff, Ne, told]
  rintro ⟨_, accepted⟩
  cases accepted

end Pattern

end Conform
