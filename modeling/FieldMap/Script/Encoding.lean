import FieldMap.Script.Instruction

/-!
# Instructions as bytes

`Instruction.decode` reads the instruction at the front of a byte string
and `Instruction.encode` writes one. What was decoded encodes to the bytes
it was read from, so that a script is never altered by being looked at.

An instruction without operand kinds is read as raw bytes. This is what
makes decoding total on ids of unknown meaning: only a lack of bytes, or a
self-sized instruction that claims to be shorter than its own header, can
make it fail.

A label has a stored form too, outside of scripts: a marker byte and its
number in four bytes.
-/

namespace FieldMap

namespace Instruction

open InstructionSet

/-- How many bytes follow the fixed part of an instruction: the number
that `0x1C` states, up to a limit, and none for all others. -/
def extraLength (id : UInt8) (bytes : List UInt8) : Except CodecError Nat :=
  if id = extendedId then
    (byteOf .extraLength extraLengthOffset bytes).map fun n => min n.toNat maxExtraLength
  else .ok 0

/-- Reads an instruction that has neither of the two ids with
sub-instructions. -/
def decodeOrdinary (id : UInt8) (bytes : List UInt8) : Except CodecError Instruction :=
  if (info id).kinds.isEmpty then do
    let extra ← extraLength id bytes
    let payload ← window .rawPayload 1 ((info id).length - 1 + extra) bytes
    return ordinary id (payload.map Operand.raw)
  else do
    let body ← window .instruction 0 (info id).length bytes
    let operands ← readOperands body 8 (info id).formats
    return ordinary id operands

/-- Reads an instruction with a special sub-instruction. -/
def decodeSpecial (bytes : List UInt8) : Except CodecError Instruction := do
  let sub ← byteOf .specialSubId 1 bytes
  let payload ← window .specialPayload 2 (specialPayloadLength sub) bytes
  return special sub (payload.map Operand.raw)

/-- Reads an instruction that states its own length. -/
def decodeKawai (bytes : List UInt8) : Except CodecError Instruction := do
  let length ← byteOf .kawaiLength 1 bytes
  if length.toNat < kawaiHeaderLength then
    .error (.wrongSize .kawaiInstruction kawaiHeaderLength length.toNat)
  else do
    let sub ← byteOf .kawaiSubId 2 bytes
    let payload ← window .kawaiPayload kawaiHeaderLength (length.toNat - kawaiHeaderLength) bytes
    return kawai sub (payload.map Operand.raw)

/-- **Reads the instruction at the front of a byte string.** What follows
it is ignored; `Instruction.length` tells how much was read. -/
def decode (bytes : List UInt8) : Except CodecError Instruction := do
  let id ← byteOf .instructionId 0 bytes
  if id = specialId then decodeSpecial bytes
  else if id = kawaiId then decodeKawai bytes
  else decodeOrdinary id bytes

/-- The byte that opens a stored label: the low byte of the id of
labels. -/
def labelMarker : UInt8 := UInt8.ofNat labelId

/-- The length of a stored label. -/
def labelLength : Nat := 5

/-- Refuses a label whose number is too large to be stored. -/
def checkLabel (number : Nat) : Except CodecError Unit := (Operand.ofKind .label number).check

/-- Reads a stored label. -/
def decodeLabel (bytes : List UInt8) : Except CodecError Instruction := do
  let stored ← window .label 0 labelLength bytes
  if stored.head? = some labelMarker then do
    let number := ofLittleEndian (stored.drop 1)
    checkLabel number
    return label number
  else .error (.missingMarker .label)

/-- **Writes an instruction.** A value outside the range of its operand
is cut off without notice. -/
def encode : Instruction → Except CodecError (List UInt8)
  | ordinary id operands =>
    packOperands (id :: List.replicate (payloadLength operands) 0) 8 operands
  | special sub operands =>
    packOperands (specialId :: sub :: List.replicate (payloadLength operands) 0) 16 operands
  | kawai sub operands =>
    let length := kawaiHeaderLength + payloadLength operands
    if length ≤ 255 then
      packOperands
        (kawaiId :: UInt8.ofNat length :: sub :: List.replicate (payloadLength operands) 0) 24
        operands
    else .error (.wrongSize .kawaiInstruction 255 length)
  | label number => do
    checkLabel number
    return labelMarker :: toLittleEndian 4 number

end Instruction

end FieldMap
