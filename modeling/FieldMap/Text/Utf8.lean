/-!
# Names in stored bytes

Names are stored as UTF-8 in fixed-size fields, and nothing promises that
the bytes are well formed. `decodeLossy` reads every byte string: a
well-formed sequence gives its character, and each longest beginning of a
sequence that does not go on as it should gives one replacement
character, after which reading starts afresh at the offending byte.

The reader is an automaton over single bytes. Its state is the sequence
that is still open: the bits collected so far, the number of bytes to
come, and the range in which the next byte has to lie. Only the second
byte of a sequence has a range narrower than `0x80`–`0xBF`; that is what
excludes overlong forms, surrogates and numbers past the last character.
-/

namespace FieldMap.Text.Utf8

/-- A multi-byte sequence that has begun. -/
structure OpenSequence where
  /-- The bits collected so far. -/
  bits : Nat
  /-- How many bytes are still to come. -/
  left : Nat
  /-- The least value that the next byte may have. -/
  low : UInt8
  /-- The greatest value that the next byte may have. -/
  high : UInt8

/-- What stands for bytes that are no character. -/
def replacement : Char := '\ufffd'

/-- The sequence that a byte past ASCII opens, if it can open one. -/
def openedBy (b : UInt8) : Option OpenSequence :=
  if 0xC2 ≤ b ∧ b ≤ 0xDF then some ⟨b.toNat - 0xC0, 1, 0x80, 0xBF⟩
  else if 0xE0 ≤ b ∧ b ≤ 0xEF then
    some ⟨b.toNat - 0xE0, 2, if b = 0xE0 then 0xA0 else 0x80, if b = 0xED then 0x9F else 0xBF⟩
  else if 0xF0 ≤ b ∧ b ≤ 0xF4 then
    some ⟨b.toNat - 0xF0, 3, if b = 0xF0 then 0x90 else 0x80, if b = 0xF4 then 0x8F else 0xBF⟩
  else none

/-- What a byte does where no sequence is open: the characters it gives
and the sequence it opens. -/
def start (b : UInt8) : List Char × Option OpenSequence :=
  if b < 0x80 then ([Char.ofNat b.toNat], none)
  else match openedBy b with
    | some s => ([], some s)
    | none => ([replacement], none)

/-- What a byte does in a given state. -/
def step (state : Option OpenSequence) (b : UInt8) : List Char × Option OpenSequence :=
  match state with
  | none => start b
  | some s =>
    if s.low ≤ b ∧ b ≤ s.high then
      let bits := s.bits * 64 + b.toNat % 64
      if s.left = 1 then ([Char.ofNat bits], none)
      else ([], some ⟨bits, s.left - 1, 0x80, 0xBF⟩)
    else
      let (cs, next) := start b
      (replacement :: cs, next)

/-- Reading from a given state on. -/
def decodeFrom (state : Option OpenSequence) : List UInt8 → List Char
  | [] => if state.isSome then [replacement] else []
  | b :: bs => (step state b).1 ++ decodeFrom (step state b).2 bs

/-- **The text of stored bytes**, with replacement characters where they
are not well formed. -/
def decodeLossy (bytes : List UInt8) : List Char := decodeFrom none bytes

end FieldMap.Text.Utf8
