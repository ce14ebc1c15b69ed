import Conform.Text.Numeral

/-!
Messages that end in a place: a line and a column of some text.
-/

namespace Conform.Text

/-- The text after a mark that stands at its beginning. -/
def dropMark? : List Char → List Char → Option (List Char)
  | [], text => some text
  | _ :: _, [] => none
  | m :: mark, c :: text => if m = c then dropMark? mark text else none

theorem append_of_dropMark? {mark text after : List Char}
    (found : dropMark? mark text = some after) : mark ++ after = text := by
  fun_induction dropMark? mark text with
  | case1 => simpa using found.symm
  | case2 => contradiction
  | case3 m mark text ih => rw [List.cons_append, ih found]
  | case4 => contradiction

/-- The parts of a text before and after the last occurrence of a mark. -/
def splitAtLast? (mark : List Char) : List Char → Option (List Char × List Char)
  | [] => none
  | c :: text =>
    match splitAtLast? mark text with
    | some (before, after) => some (c :: before, after)
    | none => (dropMark? mark (c :: text)).map fun after => ([], after)

/-- A split loses nothing. -/
theorem append_of_splitAtLast? {mark text before after : List Char}
    (split : splitAtLast? mark text = some (before, after)) : before ++ mark ++ after = text := by
  fun_induction splitAtLast? mark text generalizing before with
  | case1 => contradiction
  | case2 c text front back found ih =>
    obtain ⟨rfl, rfl⟩ : c :: front = before ∧ back = after := by simpa using split
    simpa using ih found
  | case3 c text missing =>
    obtain ⟨back, here, same⟩ := Option.map_eq_some_iff.mp split
    obtain ⟨rfl, rfl⟩ : [] = before ∧ back = after := by simpa using same
    exact append_of_dropMark? here

/-- A message and the place that it is about. Lines count from one, and line zero is no place. -/
structure Located where
  message : List Char
  line : Nat
  column : Nat
  deriving DecidableEq, Repr

namespace Located

def lineMark : List Char := " at line ".toList

def columnMark : List Char := " column ".toList

/-- Reads a message with a place at its very end. Only the last place belongs to the message. -/
def read? (text : List Char) : Option Located := do
  let (message, place) ← splitAtLast? lineMark text
  let line ← readCount? (place.takeWhile Char.isDigit)
  let digits ← dropMark? columnMark (place.dropWhile Char.isDigit)
  let column ← readCount? digits
  return ⟨message, line, column⟩

/-- A message is followed by its place, if it has one. -/
def write (located : Located) : List Char :=
  if located.line = 0 then located.message
  else located.message ++ lineMark ++ Nat.toDigits 10 located.line
    ++ columnMark ++ Nat.toDigits 10 located.column

end Located

/-- A message with the place at its end, if any, in its usual form: plain numerals, and nothing
for line zero. -/
def withPlainPlace (text : String) : String :=
  match Located.read? text.toList with
  | some located => String.ofList located.write
  | none => text

end Conform.Text
