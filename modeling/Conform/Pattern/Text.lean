import Conform.Pattern

/-!
The written forms of patterns: the readable text and the structural view. Fields are written in
the order of their declaration.
-/

namespace Conform

mutual

def Pattern.toText : Pattern → String
  | .anyString => "String"
  | .anyNumber => "Number"
  | .anyBoolean => "Boolean"
  | .literal value => value.toText
  | .sequence element => "[" ++ element.toText ++ "]"
  | .object fields => "\x7b" ++ ", ".intercalate (Pattern.fieldTexts fields) ++ "\x7d"
  | .undefined => "undefined"

def Pattern.fieldTexts : List (String × Pattern) → List String
  | [] => []
  | (name, field) :: fields => (name ++ ": " ++ field.toText) :: Pattern.fieldTexts fields

end

mutual

/-- The structural view, which names every form and quotes field names. -/
def Pattern.debugText : Pattern → String
  | .anyString => "AnyString"
  | .anyNumber => "AnyNumber"
  | .anyBoolean => "AnyBoolean"
  | .literal value => "Literal(" ++ value.debugText ++ ")"
  | .sequence element => "Sequence(" ++ element.debugText ++ ")"
  | .object fields => "Object([" ++ ", ".intercalate (Pattern.fieldDebugTexts fields) ++ "])"
  | .undefined => "Undefined"

def Pattern.fieldDebugTexts : List (String × Pattern) → List String
  | [] => []
  | (name, field) :: fields =>
    ("(" ++ Text.quote name ++ ", " ++ field.debugText ++ ")") :: Pattern.fieldDebugTexts fields

end

end Conform
