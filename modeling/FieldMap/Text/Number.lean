/-!
# Written numbers

The two ways a number is written: in decimal, with a minus sign in front
of a negative one, and in base sixteen behind the mark `0x`. Addresses
and identifiers are written in base sixteen, counts and values in decimal.

`signedDecimal` is the form in which a listing holds its arguments; the
reader of that form is `FieldMap.Listing.readInteger`.
-/

namespace FieldMap.Text

/-- Decimal digits of a natural number, without leading zeros. -/
def decimal (n : Nat) : String := n.repr

/-- **Decimal form of an integer**: its magnitude, behind a minus sign
when it is negative. -/
def signedDecimal (v : Int) : String :=
  if v < 0 then "-" ++ decimal v.natAbs else decimal v.natAbs

/-- `s` filled up on the left with `c` to at least `width` characters. -/
def padLeft (width : Nat) (c : Char) (s : String) : String :=
  String.ofList (List.replicate (width - s.length) c) ++ s

/-- Digits of `n` in base sixteen, with small letters. -/
def hexDigits (n : Nat) : String := String.ofList (Nat.toDigits 16 n)

/-- An address: `0x` and the digits of `n` in base sixteen, as many as
there are. -/
def address (n : Nat) : String := "0x" ++ hexDigits n

/-- An identifier of fixed size: `0x` and at least `width` digits in base
sixteen, with capital letters. -/
def hexId (width n : Nat) : String :=
  "0x" ++ padLeft width '0' ((hexDigits n).map Char.toUpper)

end FieldMap.Text
