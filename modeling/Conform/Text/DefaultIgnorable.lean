/-!
Code points that are not shown where they are not supported, such as fillers and joiners (the
Unicode property `Default_Ignorable_Code_Point`, version 17.0).
-/

namespace Conform.Text

/-- The ranges of the property, in ascending order and with both ends included. -/
def defaultIgnorableRanges : Array (Nat × Nat) :=
  #[(0xad, 0xad), (0x34f, 0x34f), (0x61c, 0x61c), (0x115f, 0x1160), (0x17b4, 0x17b5),
    (0x180b, 0x180f), (0x200b, 0x200f), (0x202a, 0x202e), (0x2060, 0x206f), (0x3164, 0x3164),
    (0xfe00, 0xfe0f), (0xfeff, 0xfeff), (0xffa0, 0xffa0), (0xfff0, 0xfff8), (0x1bca0, 0x1bca3),
    (0x1d173, 0x1d17a), (0xe0000, 0xe0fff)]

/-- No ASCII character has the property. -/
def isDefaultIgnorable (c : Char) : Bool :=
  if c.toNat < 0x80 then false
  else defaultIgnorableRanges.any fun range => range.1 ≤ c.toNat && c.toNat ≤ range.2

end Conform.Text
