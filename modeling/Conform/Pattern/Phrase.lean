import Conform.Pattern

/-!
Phrases: patterns as they are written in a program, in the manner of object literals. What is no
phrase of patterns is an expression of the program around it.
-/

namespace Conform

inductive Phrase where
  | word (name : String)
  | text (value : String)
  | char (value : Char)
  /-- A whole number, which has no sign of its own. -/
  | integer (n : Nat)
  /-- The double nearest to a number written with a point, which has no sign of its own. -/
  | decimal (x : Binary64)
  | minus
  | comma
  | colon
  /-- Any other mark. -/
  | mark (text : String)
  | parens (inner : List Phrase)
  | brackets (inner : List Phrase)
  | braces (inner : List Phrase)

namespace Phrase

/-- What a word means in every program. -/
def ofWord? : String → Option Pattern
  | "String" => some .anyString
  | "Number" => some .anyNumber
  | "Boolean" => some .anyBoolean
  | "undefined" => some .undefined
  | "null" => some .null
  | "true" => some (.boolean true)
  | "false" => some (.boolean false)
  | _ => none

/-- The name that a phrase gives to a field. -/
def name? : Phrase → Option String
  | .word name => some name
  | .text value => some value
  | .char value => some value.toString
  | _ => none

/-- Whether phrases are declarations: a phrase, a colon and one phrase more, and a comma before the
next declaration. There may be a comma after the last one. -/
def areDeclarations : List Phrase → Bool
  | [] => true
  | [_, .colon, _] => true
  | _ :: .colon :: _ :: .comma :: rest => areDeclarations rest
  | _ => false

variable (host : List Phrase → Option Pattern)

mutual

/-- The pattern that one phrase stands for. The host says which pattern phrases make as an
expression of the program, if they make one. -/
def pattern? : Phrase → Option Pattern
  | .word name => (ofWord? name).or (host [.word name])
  | .text value => some (.string value)
  | .integer n => if n < 0x80000000 then some (.ofInt n) else none
  | .decimal x => if x.isFinite then some (.number x) else none
  | .parens [] => host [.parens []]
  | .parens (first :: others) => patternOf? (first :: others)
  | .brackets [] => host [.brackets []]
  | .brackets (first :: others) => (patternOf? (first :: others)).map .sequence
  | .braces inner =>
    if areDeclarations inner then (fieldsOf? inner).map .object else host [.braces inner]
  | phrase => host [phrase]

/-- The pattern that phrases stand for together. -/
def patternOf? : List Phrase → Option Pattern
  | [phrase] => phrase.pattern?
  | [.minus, .integer n] => if n ≤ 0x80000000 then some (.ofInt (-n)) else none
  | [.minus, .decimal x] => if x.isFinite then some (.number x.opposite) else none
  | phrases => host phrases

/-- The fields that declarations declare, in order. A name may be declared several times. -/
def fieldsOf? : List Phrase → Option (List (String × Pattern))
  | [] => some []
  | [key, .colon, value] => return [(← key.name?, ← value.pattern?)]
  | key :: .colon :: value :: .comma :: rest =>
    return (← key.name?, ← value.pattern?) :: (← fieldsOf? rest)
  | _ => none

end

end Phrase

end Conform
