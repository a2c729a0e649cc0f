import FieldMap.Text.Number

/-!
# Dialog texts

A dialog text is a string of glyph codes. The codes up to `0x5E` are the
printable characters of ASCII, shifted so that the blank has code zero,
and `0xE7` starts a new line. Everything else, such as names that are put
in later or pauses, is shown by its code in braces.
-/

namespace FieldMap.Dialog

/-- The printable form of one code. -/
def glyph (code : UInt8) : String :=
  if code ≤ 0x5E then String.singleton (Char.ofNat (code.toNat + 0x20))
  else if code = 0xE7 then "\n"
  else "\x7b" ++ Text.padLeft 2 '0' ((Text.hexDigits code.toNat).map Char.toUpper) ++ "\x7d"

/-- **The printable form of a dialog text.** -/
def decode (codes : List UInt8) : String := String.join (codes.map glyph)

end FieldMap.Dialog
