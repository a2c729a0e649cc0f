/-!
# The tokens of JSON

JSON text is cut into tokens in one pass. Texts in quotes are kept as they
are written, with their escapes; `unescape` gives the text that they
denote, and fails where an escape denotes no character. A text that nobody
asks for is thus only required to be well formed.

Everything that is no bracket, comma, colon, quoted text or blank forms
*bare words*, which have to be one of the three names or a number.
-/

namespace FieldMap.Json

/-- **A token of JSON text.** -/
inductive Token where
  | openArray
  | closeArray
  | openObject
  | closeObject
  | comma
  | colon
  /-- A text in quotes, as it is written between them. -/
  | quoted (written : List Char)
  /-- A name or a number. -/
  | bare (word : List Char)
deriving DecidableEq, Repr

namespace Token

/-- Blanks of JSON. -/
def isBlank (c : Char) : Bool := c == ' ' || c == '\n' || c == '\t' || c == '\r'

/-- The token that is a single character, if it is one. -/
def ofMark? (c : Char) : Option Token :=
  if c = '[' then some openArray
  else if c = ']' then some closeArray
  else if c = '\x7b' then some openObject
  else if c = '\x7d' then some closeObject
  else if c = ',' then some comma
  else if c = ':' then some colon
  else none

/-- A sign in front of an exponent is optional. -/
def dropSign : List Char → List Char
  | '+' :: cs | '-' :: cs => cs
  | cs => cs

/-- Digits, at least one, up to the end. -/
def isDigits (cs : List Char) : Bool := !cs.isEmpty && cs.all Char.isDigit

/-- Whether characters are an exponent, or nothing. -/
def isExponent : List Char → Bool
  | [] => true
  | c :: cs => (c == 'e' || c == 'E') && isDigits (dropSign cs)

/-- Whether characters are a fraction and an exponent, both optional. -/
def isFraction : List Char → Bool
  | '.' :: cs => !(cs.takeWhile Char.isDigit).isEmpty && isExponent (cs.dropWhile Char.isDigit)
  | cs => isExponent cs

/-- Whether characters are a number without a sign. The digits before the
fraction do not start with zero, unless that is all of them. -/
def isMagnitude : List Char → Bool
  | '0' :: cs => isFraction cs
  | cs => !(cs.takeWhile Char.isDigit).isEmpty && isFraction (cs.dropWhile Char.isDigit)

/-- **Whether a bare word is a number.** -/
def isNumber : List Char → Bool
  | '-' :: cs => isMagnitude cs
  | cs => isMagnitude cs

/-- The bare words that JSON knows. -/
def isKnownWord (word : List Char) : Bool :=
  word == "true".toList || word == "false".toList || word == "null".toList || isNumber word

/-- Whether a character may follow a backslash, other than the letter that
announces a number. -/
def isEscape (c : Char) : Bool := "\"\\/bfnrt".toList.contains c

/-- Whether a character is a digit in base sixteen. -/
def isHexDigit (c : Char) : Bool :=
  c.isDigit || ('a' ≤ c && c ≤ 'f') || ('A' ≤ c && c ≤ 'F')

/-- What the next character belongs to. -/
inductive Mode where
  | between
  /-- A bare word, kept in reverse. -/
  | inBare (word : List Char)
  /-- A quoted text, kept in reverse. -/
  | inQuotes (written : List Char)
  /-- A quoted text behind a backslash. -/
  | escaped (written : List Char)
  /-- A quoted text where digits of a character's number are to come. -/
  | numbered (written : List Char) (left : Nat)

/-- The state of cutting text into tokens. -/
structure Scan where
  /-- The tokens so far, in reverse. -/
  done : List Token
  mode : Mode

/-- Goes on behind a complete token. -/
def Scan.between (done : List Token) (c : Char) : Option Scan :=
  if isBlank c then some ⟨done, .between⟩
  else if c = '"' then some ⟨done, .inQuotes []⟩
  else match ofMark? c with
    | some token => some ⟨token :: done, .between⟩
    | none => some ⟨done, .inBare [c]⟩

/-- The tokens with the bare word that ends here. -/
def Scan.endBare (done : List Token) (word : List Char) : Option (List Token) :=
  if isKnownWord word.reverse then some (bare word.reverse :: done) else none

/-- What a character does. -/
def Scan.step (scan : Scan) (c : Char) : Option Scan :=
  match scan.mode with
  | .between => between scan.done c
  | .inBare word =>
    if isBlank c || c == '"' || (ofMark? c).isSome then
      (endBare scan.done word).bind fun done => between done c
    else some ⟨scan.done, .inBare (c :: word)⟩
  | .inQuotes written =>
    if c = '"' then some ⟨quoted written.reverse :: scan.done, .between⟩
    else if c = '\\' then some ⟨scan.done, .escaped (c :: written)⟩
    else if c < ' ' then none
    else some ⟨scan.done, .inQuotes (c :: written)⟩
  | .escaped written =>
    if c = 'u' then some ⟨scan.done, .numbered (c :: written) 4⟩
    else if isEscape c then some ⟨scan.done, .inQuotes (c :: written)⟩
    else none
  | .numbered written left =>
    if isHexDigit c then
      if left ≤ 1 then some ⟨scan.done, .inQuotes (c :: written)⟩
      else some ⟨scan.done, .numbered (c :: written) (left - 1)⟩
    else none

/-- The tokens of a text that is at its end. -/
def Scan.finish (scan : Scan) : Option (List Token) :=
  match scan.mode with
  | .between => some scan.done.reverse
  | .inBare word => (endBare scan.done word).map List.reverse
  | _ => none

/-- **Cuts text into tokens.** -/
def scan (text : List Char) : Option (List Token) :=
  (text.foldlM Scan.step ⟨[], .between⟩).bind Scan.finish

/-! ## Quoted texts -/

/-- The value of a digit in base sixteen. -/
def hexValue (c : Char) : Nat :=
  if c.isDigit then c.toNat - '0'.toNat
  else if 'a' ≤ c then c.toNat - 'a'.toNat + 10
  else c.toNat - 'A'.toNat + 10

/-- The number that four digits in base sixteen write. -/
def hexNumber (a b c d : Char) : Nat :=
  ((hexValue a * 16 + hexValue b) * 16 + hexValue c) * 16 + hexValue d

/-- Whether a number is the first half of a pair that stands for one
character. -/
def isLeading (n : Nat) : Bool := 0xD800 ≤ n && n < 0xDC00

/-- Whether a number is the second half of such a pair. -/
def isTrailing (n : Nat) : Bool := 0xDC00 ≤ n && n < 0xE000

/-- The character of a pair of halves. -/
def ofPair (leading trailing : Nat) : Char :=
  Char.ofNat (0x10000 + (leading - 0xD800) * 0x400 + (trailing - 0xDC00))

/-- The character that a letter behind a backslash denotes. -/
def ofEscape (c : Char) : Char :=
  if c = 'b' then '\x08'
  else if c = 'f' then '\x0c'
  else if c = 'n' then '\n'
  else if c = 'r' then '\r'
  else if c = 't' then '\t'
  else c

/-- **The text that a quoted text denotes.** A half of a pair must not
stand alone. -/
def unescape : List Char → Option (List Char)
  | [] => some []
  | '\\' :: 'u' :: a :: b :: c :: d :: '\\' :: 'u' :: a' :: b' :: c' :: d' :: rest =>
    let first := hexNumber a b c d
    let second := hexNumber a' b' c' d'
    if isTrailing first then none
    else if isLeading first then
      if isTrailing second then (unescape rest).map (ofPair first second :: ·) else none
    else (unescape ('\\' :: 'u' :: a' :: b' :: c' :: d' :: rest)).map (Char.ofNat first :: ·)
  | '\\' :: 'u' :: a :: b :: c :: d :: rest =>
    let number := hexNumber a b c d
    if isLeading number || isTrailing number then none
    else (unescape rest).map (Char.ofNat number :: ·)
  | '\\' :: c :: rest => (unescape rest).map (ofEscape c :: ·)
  | c :: rest => (unescape rest).map (c :: ·)

end Token

end FieldMap.Json
