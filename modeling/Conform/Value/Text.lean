import Conform.Value

/-!
The written forms of values: the readable text and the structural view. Records are written in
name order.
-/

namespace Conform

mutual

def Value.toText : Value → String
  | .scalar value => value.toText
  | .list items => "[" ++ ", ".intercalate (Value.itemTexts items) ++ "]"
  | .record fields => "\x7b" ++ ", ".intercalate (Value.fieldTexts fields) ++ "\x7d"

def Value.itemTexts : List Value → List String
  | [] => []
  | item :: items => item.toText :: Value.itemTexts items

def Value.fieldTexts {lower : Option String} : Fields Value lower → List String
  | .nil => []
  | .cons name _ value rest => (name ++ ": " ++ value.toText) :: Value.fieldTexts rest

end

mutual

/-- The structural view, which names every kind and quotes field names. -/
def Value.debugText : Value → String
  | .scalar value => value.debugText
  | .list items => "List([" ++ ", ".intercalate (Value.itemDebugTexts items) ++ "])"
  | .record fields =>
    "Record(\x7b" ++ ", ".intercalate (Value.fieldDebugTexts fields) ++ "\x7d)"

def Value.itemDebugTexts : List Value → List String
  | [] => []
  | item :: items => item.debugText :: Value.itemDebugTexts items

def Value.fieldDebugTexts {lower : Option String} : Fields Value lower → List String
  | .nil => []
  | .cons name _ value rest =>
    (Text.quote name ++ ": " ++ value.debugText) :: Value.fieldDebugTexts rest

end

end Conform
