import Conform.Proofs.Quotation

/-!
Bracketed texts: words and quoted strings, rows of items and tables of named entries. With names
that end at their colon such a text is read in one way only, whatever follows it.
-/

namespace Conform

namespace Text

/-- A character of which words are made: ASCII letters and digits, the sign and the point. -/
def isBare (c : Char) : Bool :=
  c.isAlphanum || c == '-' || c == '.'

/-- A character that can stand behind a word. -/
def isStop (c : Char) : Bool :=
  c == ',' || c == ']' || c == '\x7d'

theorem isStop_of_isBare {c : Char} (bare : isBare c = true) : isStop c = false := by
  rw [← Bool.not_eq_true]
  intro stop
  simp only [isStop, Bool.or_eq_true, beq_iff_eq] at stop
  rcases stop with (rfl | rfl) | rfl <;> cases bare

/-- A name of ASCII letters, digits and underscores. -/
def Identifier (name : String) : Prop :=
  ∀ c ∈ name.toList, c.isAlphanum = true ∨ c = '_'

instance (name : String) : Decidable (Identifier name) :=
  decidable_of_iff (name.toList.all fun c => c.isAlphanum || c == '_') (by simp [Identifier])

theorem Identifier.not_mem {name : String} (identifier : Identifier name) {c : Char}
    (other : c.isAlphanum = false) (apart : c ≠ '_') : c ∉ name.toList := by
  intro member
  rcases identifier c member with alphanumeric | underscore
  · exact Bool.false_ne_true (other.symm.trans alphanumeric)
  · exact apart underscore

/-- Whatever stop follows, the text of one element is told from that of another. -/
def ToldApart {α : Type} (text : α → List Char) (item other : α) : Prop :=
  ∀ rest others, StopsAt isStop rest → StopsAt isStop others →
    text item ++ rest = text other ++ others → item = other ∧ rest = others

section

variable {α : Type} {text : α → List Char} {close : Char} {items others : List α}
  {rest more : List Char}

theorem intercalate_cons (first : List Char) (texts : List (List Char)) :
    List.intercalate [',', ' '] (first :: texts) =
      first ++ texts.flatMap fun text => ',' :: ' ' :: text := by
  induction texts generalizing first with
  | nil => simp
  | cons second texts ih =>
    rw [List.intercalate_cons_cons, ih, List.flatMap_cons, List.append_assoc]
    rfl

theorem stopsAt_separated (closes : isStop close = true) (texts : List (List Char)) :
    StopsAt isStop ((texts.flatMap fun text => ',' :: ' ' :: text) ++ close :: rest) := by
  cases texts with
  | nil => exact stopsAt_cons_iff.mpr closes
  | cons text texts => exact stopsAt_cons_iff.mpr rfl

/-- Elements behind commas are told apart one after the other. -/
theorem behind_append_inj (closes : isStop close = true) (apart : close ≠ ',')
    (each : ∀ item ∈ items, ∀ other ∈ others, ToldApart text item other)
    (same : (((items.map text).flatMap fun text => ',' :: ' ' :: text) ++ close :: rest) =
      ((others.map text).flatMap fun text => ',' :: ' ' :: text) ++ close :: more) :
    items = others ∧ rest = more := by
  induction items generalizing others with
  | nil =>
    cases others with
    | nil => exact ⟨rfl, (List.cons.inj same).2⟩
    | cons other others => exact absurd (List.cons.inj same).1 apart
  | cons item items ih =>
    cases others with
    | nil => exact absurd (List.cons.inj same).1.symm apart
    | cons other others =>
      simp only [List.map_cons, List.flatMap_cons, List.cons_append, List.append_assoc,
        List.cons.injEq, true_and] at same
      obtain ⟨rfl, behind⟩ := each item List.mem_cons_self other List.mem_cons_self _ _
        (stopsAt_separated closes _) (stopsAt_separated closes _) same
      obtain ⟨rfl, rfl⟩ := ih (fun item member other memberToo =>
        each item (List.mem_cons_of_mem _ member) other (List.mem_cons_of_mem _ memberToo)) behind
      exact ⟨rfl, rfl⟩

/-- Separated elements are told apart up to the bracket behind them, with which no element
begins. -/
theorem separated_append_inj (closes : isStop close = true) (apart : close ≠ ',')
    (opens : ∀ item, item ∈ items ∨ item ∈ others →
      ∀ rest more, text item ++ rest ≠ close :: more)
    (each : ∀ item ∈ items, ∀ other ∈ others, ToldApart text item other)
    (same : List.intercalate [',', ' '] (items.map text) ++ close :: rest =
      List.intercalate [',', ' '] (others.map text) ++ close :: more) :
    items = others ∧ rest = more := by
  cases items with
  | nil =>
    cases others with
    | nil => exact ⟨rfl, (List.cons.inj same).2⟩
    | cons other others =>
      rw [List.map_cons, intercalate_cons, List.append_assoc] at same
      exact absurd same.symm (opens other (.inr List.mem_cons_self) _ _)
  | cons item items =>
    rw [List.map_cons, intercalate_cons, List.append_assoc] at same
    cases others with
    | nil => exact absurd same (opens item (.inl List.mem_cons_self) _ _)
    | cons other others =>
      rw [List.map_cons, intercalate_cons, List.append_assoc] at same
      obtain ⟨rfl, behind⟩ := each item List.mem_cons_self other List.mem_cons_self _ _
        (stopsAt_separated closes _) (stopsAt_separated closes _) same
      obtain ⟨rfl, rfl⟩ := behind_append_inj closes apart (fun item member other memberToo =>
        each item (List.mem_cons_of_mem _ member) other (List.mem_cons_of_mem _ memberToo)) behind
      exact ⟨rfl, rfl⟩

end

end Text

inductive Layout where
  | word (chars : List Char)
  | quoted (text : String)
  | row (items : List Layout)
  | table (entries : List (String × Layout))

namespace Layout

mutual

def chars : Layout → List Char
  | .word chars => chars
  | .quoted text => (Text.quote text).toList
  | .row items => '[' :: (List.intercalate [',', ' '] (itemChars items) ++ [']'])
  | .table entries => '\x7b' :: (List.intercalate [',', ' '] (entryChars entries) ++ ['\x7d'])

def itemChars : List Layout → List (List Char)
  | [] => []
  | item :: items => item.chars :: itemChars items

def entryChars : List (String × Layout) → List (List Char)
  | [] => []
  | (name, entry) :: entries => (name.toList ++ ':' :: ' ' :: entry.chars) :: entryChars entries

end

/-- The words are bare and not empty, and the names are identifiers. -/
inductive Plain : Layout → Prop where
  | word {chars : List Char} (nonempty : chars ≠ []) (bare : chars.all Text.isBare = true) :
      Plain (.word chars)
  | quoted {text : String} : Plain (.quoted text)
  | row {items : List Layout} (plain : ∀ item ∈ items, Plain item) : Plain (.row items)
  | table {entries : List (String × Layout)}
      (names : ∀ entry ∈ entries, Text.Identifier entry.1)
      (plain : ∀ entry ∈ entries, Plain entry.2) : Plain (.table entries)

variable {layout other : Layout} {rest others : List Char}

theorem itemChars_eq_map (items : List Layout) : itemChars items = items.map chars := by
  induction items with
  | nil => rfl
  | cons item items ih => rw [itemChars, ih, List.map_cons]

/-- The characters of a named entry. -/
def entryText (entry : String × Layout) : List Char :=
  entry.1.toList ++ ':' :: ' ' :: entry.2.chars

theorem entryChars_eq_map (entries : List (String × Layout)) :
    entryChars entries = entries.map entryText := by
  induction entries with
  | nil => rfl
  | cons entry entries ih => rw [entryChars, ih, List.map_cons, entryText]

theorem chars_row {items : List Layout} {texts : List String}
    (same : texts.map String.toList = items.map chars) :
    (row items).chars = ("[" ++ ", ".intercalate texts ++ "]").toList := by
  rw [chars, itemChars_eq_map, ← same]
  simp

theorem chars_table {entries : List (String × Layout)} {texts : List String}
    (same : texts.map String.toList = entries.map entryText) :
    (table entries).chars = ("\x7b" ++ ", ".intercalate texts ++ "\x7d").toList := by
  rw [chars, entryChars_eq_map, ← same]
  simp

/-- What a text begins with unless it is a word. -/
def opening : Layout → Option Char
  | .word _ => none
  | .quoted _ => some '"'
  | .row _ => some '['
  | .table _ => some '\x7b'

theorem Plain.opening_eq (plain : layout.Plain) (rest : List Char) :
    layout.opening = (layout.chars ++ rest).head?.filter (!Text.isBare ·) := by
  cases plain with
  | word nonempty bare =>
    obtain ⟨c, chars, rfl⟩ := List.exists_cons_of_ne_nil nonempty
    have first := List.all_eq_true.mp bare c List.mem_cons_self
    simp [opening, Layout.chars, Option.filter, first]
  | quoted =>
    rw [Layout.chars, Text.toList_quote]
    rfl
  | row | table => rfl

theorem Plain.opening_inj (plain : layout.Plain) (plainToo : other.Plain)
    (same : layout.chars ++ rest = other.chars ++ others) : layout.opening = other.opening := by
  rw [plain.opening_eq rest, same, ← plainToo.opening_eq]

/-- No text begins like what can stand behind it. -/
theorem Plain.append_ne (plain : layout.Plain) {close : Char} (closes : Text.isStop close = true)
    (rest more : List Char) : layout.chars ++ rest ≠ close :: more := by
  intro same
  have strange : Text.isBare close = false := by
    rw [← Bool.not_eq_true]
    intro bare
    exact Bool.false_ne_true ((Text.isStop_of_isBare bare).symm.trans closes)
  have first := plain.opening_eq rest
  rw [same, List.head?_cons, Option.filter_some, strange] at first
  cases layout with
  | word => cases first
  | quoted | row | table =>
    cases first
    cases closes

theorem entryText_append_ne {entry : String × Layout} (name : Text.Identifier entry.1)
    (rest more : List Char) : entryText entry ++ rest ≠ '\x7d' :: more := by
  intro same
  rw [entryText, List.append_assoc] at same
  cases chars : entry.1.toList with
  | nil =>
    rw [chars] at same
    cases same
  | cons c tail =>
    rw [chars] at same
    have inside : '\x7d' ∈ entry.1.toList := by
      rw [chars, (List.cons.inj same).1]
      exact List.mem_cons_self
    exact name.not_mem (by decide) (by decide) inside

theorem toldApart_entry {entry other : String × Layout} (name : Text.Identifier entry.1)
    (nameToo : Text.Identifier other.1) (part : Text.ToldApart chars entry.2 other.2) :
    Text.ToldApart entryText entry other := by
  intro rest others stops stopsToo same
  simp only [entryText, List.append_assoc, List.cons_append] at same
  obtain ⟨names, behind⟩ := Text.append_inj_of_not_mem (name.not_mem (by decide) (by decide))
    (nameToo.not_mem (by decide) (by decide)) same
  obtain ⟨parts, rfl⟩ := part rest others stops stopsToo (List.cons.inj behind).2
  exact ⟨Prod.ext (String.toList_inj.mp names) parts, rfl⟩

/-- Such a text is read in one way only. -/
theorem Plain.toldApart (plain : layout.Plain) (plainToo : other.Plain) :
    Text.ToldApart chars layout other := by
  induction plain generalizing other with
  | word nonempty bare =>
    intro rest others stops stopsToo same
    have opening := (word nonempty bare).opening_inj plainToo same
    cases plainToo with
    | word nonemptyToo bareToo =>
      obtain ⟨rfl, rfl⟩ := Text.append_inj_of_stopsAt
        (fun c member => Text.isStop_of_isBare (List.all_eq_true.mp bare c member))
        (fun c member => Text.isStop_of_isBare (List.all_eq_true.mp bareToo c member)) stops
        stopsToo same
      exact ⟨rfl, rfl⟩
    | quoted | row | table => cases opening
  | quoted =>
    intro rest others stops stopsToo same
    have opening := Plain.quoted.opening_inj plainToo same
    cases plainToo with
    | quoted =>
      obtain ⟨rfl, rfl⟩ := Text.quote_append_inj same
      exact ⟨rfl, rfl⟩
    | word | row | table => cases opening
  | row plain ih =>
    intro rest others stops stopsToo same
    have opening := (row plain).opening_inj plainToo same
    cases plainToo with
    | row plainToo =>
      simp only [chars, itemChars_eq_map, List.cons_append, List.append_assoc, List.cons.injEq,
        true_and] at same
      obtain ⟨rfl, rfl⟩ := Text.separated_append_inj rfl (by decide)
        (fun item member => (member.elim (plain item) (plainToo item)).append_ne rfl)
        (fun item member other memberToo => ih item member (plainToo other memberToo)) same
      exact ⟨rfl, rfl⟩
    | word | quoted | table => cases opening
  | table names plain ih =>
    intro rest others stops stopsToo same
    have opening := (table names plain).opening_inj plainToo same
    cases plainToo with
    | table namesToo plainToo =>
      simp only [chars, entryChars_eq_map, List.cons_append, List.append_assoc, List.cons.injEq,
        true_and] at same
      obtain ⟨rfl, rfl⟩ := Text.separated_append_inj rfl (by decide)
        (fun entry member => entryText_append_ne (member.elim (names entry) (namesToo entry)))
        (fun entry member other memberToo => toldApart_entry (names entry member)
          (namesToo other memberToo) (ih entry member (plainToo other memberToo))) same
      exact ⟨rfl, rfl⟩
    | word | quoted | row => cases opening

theorem Plain.chars_inj (plain : layout.Plain) (plainToo : other.Plain) :
    layout.chars = other.chars ↔ layout = other := by
  refine ⟨fun same => ?_, congrArg chars⟩
  rw [← List.append_nil layout.chars, ← List.append_nil other.chars] at same
  exact (plain.toldApart plainToo [] [] Text.stopsAt_nil Text.stopsAt_nil same).1

end Layout

end Conform
