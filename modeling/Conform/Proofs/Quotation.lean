import Conform.Proofs.Delimited
import Conform.Text.Quoted

/-!
Quoted strings are read in one way only. An escape tells by its second character how far it goes,
and no escape begins like the quote at the end.
-/

namespace Conform.Text

variable {c d : Char} {rest others : List Char}

/-- The characters with an escape of two characters, and the second of these. -/
def shortEscapes : List (Char × Char) :=
  [('"', '"'), ('\\', '\\'), ('\n', 'n'), ('\r', 'r'), ('\t', 't'), ('\x00', '0')]

/-- The forms that a character can have inside quotes. -/
inductive Escaped (c : Char) : List Char → Prop where
  | plain (quote : c ≠ '"') (mark : c ≠ '\\') : Escaped c [c]
  | short {letter : Char} (listed : (c, letter) ∈ shortEscapes) : Escaped c ['\\', letter]
  | codePoint : Escaped c (codePointEscape c)

theorem escaped_escape (c : Char) : Escaped c (escape c) := by
  rw [escape.eq_def]
  split
  case h_7 quote mark _ _ _ _ =>
    split
    · exact .codePoint
    · exact .plain quote mark
  all_goals exact .short (by decide)

theorem shortEscapes_injective :
    ∀ entry ∈ shortEscapes, ∀ other ∈ shortEscapes, entry.2 = other.2 → entry.1 = other.1 := by
  decide

theorem shortEscapes_ne : ∀ entry ∈ shortEscapes, entry.2 ≠ 'u' := by
  decide

theorem codePointEscape_append (c : Char) (rest : List Char) :
    codePointEscape c ++ rest =
      '\\' :: 'u' :: '\x7b' :: (Nat.toDigits 16 c.toNat ++ '\x7d' :: rest) := by
  simp [codePointEscape]

/-- Whatever follows, an escape shows its character and where it ends. -/
theorem escape_append_inj (same : escape c ++ rest = escape d ++ others) :
    c = d ∧ rest = others := by
  have first := escaped_escape c
  have second := escaped_escape d
  generalize escape c = text at first same
  generalize escape d = other at second same
  cases first with
  | plain quote mark =>
    cases second with
    | plain => exact List.cons.inj same
    | short => exact absurd (List.cons.inj same).1 mark
    | codePoint => exact absurd (List.cons.inj same).1 mark
  | short listed =>
    cases second with
    | plain quote mark => exact absurd (List.cons.inj same).1.symm mark
    | short listedToo =>
      obtain ⟨letters, behind⟩ := List.cons.inj (List.cons.inj same).2
      exact ⟨shortEscapes_injective _ listed _ listedToo letters, behind⟩
    | codePoint =>
      obtain ⟨letters, _⟩ := List.cons.inj (List.cons.inj same).2
      exact absurd letters (shortEscapes_ne _ listed)
  | codePoint =>
    cases second with
    | plain quote mark => exact absurd (List.cons.inj same).1.symm mark
    | short listed =>
      obtain ⟨letters, _⟩ := List.cons.inj (List.cons.inj same).2
      exact absurd letters.symm (shortEscapes_ne _ listed)
    | codePoint =>
      rw [codePointEscape_append, codePointEscape_append] at same
      obtain ⟨numbers, behind⟩ := toDigits_append_inj (by decide) (by decide)
        (fun digit => Nat.digitChar_ne '\x7d' (by decide))
        (List.cons.inj (List.cons.inj (List.cons.inj same).2).2).2
      exact ⟨Char.toNat_inj.mp numbers, behind⟩

/-- No escape begins with the quote that ends the string. -/
theorem escape_append_ne (c : Char) : escape c ++ rest ≠ '"' :: others := by
  intro same
  have form := escaped_escape c
  generalize escape c = text at form same
  cases form with
  | plain quote mark => exact quote (List.cons.inj same).1
  | short | codePoint => cases (List.cons.inj same).1

theorem flatMap_escape_append_inj {chars more : List Char}
    (same : chars.flatMap escape ++ '"' :: rest = more.flatMap escape ++ '"' :: others) :
    chars = more ∧ rest = others := by
  induction chars generalizing more with
  | nil =>
    cases more with
    | nil => exact ⟨rfl, (List.cons.inj same).2⟩
    | cons d more =>
      rw [List.flatMap_cons, List.append_assoc] at same
      exact absurd same.symm (escape_append_ne d)
  | cons c chars ih =>
    cases more with
    | nil =>
      rw [List.flatMap_cons, List.append_assoc] at same
      exact absurd same (escape_append_ne c)
    | cons d more =>
      rw [List.flatMap_cons, List.flatMap_cons, List.append_assoc, List.append_assoc] at same
      obtain ⟨rfl, behind⟩ := escape_append_inj same
      obtain ⟨rfl, rfl⟩ := ih behind
      exact ⟨rfl, rfl⟩

theorem toList_quote (text : String) :
    (quote text).toList = '"' :: (text.toList.flatMap escape ++ ['"']) := by
  rw [quote, String.toList_ofList]

/-- A quoted string shows its text and where it ends. -/
theorem quote_append_inj {text other : String}
    (same : (quote text).toList ++ rest = (quote other).toList ++ others) :
    text = other ∧ rest = others := by
  rw [toList_quote, toList_quote, List.cons_append, List.cons_append, List.append_assoc,
    List.append_assoc] at same
  obtain ⟨chars, behind⟩ := flatMap_escape_append_inj (List.cons.inj same).2
  exact ⟨String.toList_inj.mp chars, behind⟩

end Conform.Text
