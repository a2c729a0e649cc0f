import FieldMap.Bytes
import FieldMap.Script.Operand

/-!
# Operands in bytes

Operands follow each other bit by bit, under one restriction that keeps
reading simple: an operand narrower than a byte lies inside one byte, high
bits first, and any other operand starts on a byte boundary and is stored
low byte first over as many whole bytes as its width needs. Where these
fail there is no place for the operand, and `locate` says so.

Reading and writing agree on the place by construction: both ask `locate`.
Writing a narrow operand only sets bits, so that neighbours packed earlier
into the same byte survive; the buffer is expected to start out zeroed.
-/

namespace FieldMap

-- powers and sums of numbers are those of the core library, whatever else is imported
attribute [local instance (high)] instPowNat Zero.ofOfNat0

/-- The place of an operand in a buffer. -/
structure BitPlace where
  /-- Index of the first byte. -/
  byte : Nat
  /-- How far a narrow operand is shifted to the left in its byte. -/
  shift : Nat
deriving DecidableEq, Repr

namespace BitPlace

/-- Number of bytes that `width` bits take up. -/
def span (width : Nat) : Nat := (width + 7) / 8

/-- **The place of `width` bits at a bit offset**, if they may lie
there. -/
def locate (bitOffset width : Nat) : Except CodecError BitPlace :=
  if width = 0 ∨ 32 < width then .error (.misaligned bitOffset width)
  else if width < 8 then
    if bitOffset % 8 + width ≤ 8 then .ok ⟨bitOffset / 8, 8 - (bitOffset % 8 + width)⟩
    else .error (.misaligned bitOffset width)
  else if bitOffset % 8 = 0 then .ok ⟨bitOffset / 8, 0⟩
  else .error (.misaligned bitOffset width)

end BitPlace

/-- The bits of a value that are stored: its remainder by `2 ^ width`,
so a negative value gives its two's complement. -/
def storedBits (width : Nat) (value : Int) : Nat := (value % 2 ^ width).toNat

/-- **The number that stored bits stand for in two's complement.** -/
def signExtend (width bits : Nat) : Int :=
  if width = 0 then 0
  else
    let low := bits % 2 ^ width
    if low < 2 ^ (width - 1) then low else (low : Int) - 2 ^ width

/-- The bits at a place. -/
def unpackBits (buffer : List UInt8) (bitOffset width : Nat) : Except CodecError Nat := do
  let place ← BitPlace.locate bitOffset width
  let bytes ← window .operand place.byte (BitPlace.span width) buffer
  return ofLittleEndian bytes / 2 ^ place.shift % 2 ^ width

/-- **Writes a value at a place.** A narrow value is added to the bits
that are there, any other replaces its bytes. -/
def packBits (buffer : List UInt8) (bitOffset width : Nat) (value : Int) :
    Except CodecError (List UInt8) := do
  let place ← BitPlace.locate bitOffset width
  let bytes ← window .operand place.byte (BitPlace.span width) buffer
  let bits := storedBits width value
  let stored :=
    if width < 8 then bytes.map fun b => b ||| UInt8.ofNat (bits * 2 ^ place.shift)
    else toLittleEndian (BitPlace.span width) bits
  return buffer.take place.byte ++ stored ++ buffer.drop (place.byte + BitPlace.span width)

/-- **Reads the value of an operand** of the given width and sign. -/
def readOperand (buffer : List UInt8) (bitOffset : Nat) (width : Nat) (signed : Bool) :
    Except CodecError Int := do
  let bits ← unpackBits buffer bitOffset width
  return if signed then signExtend width bits else bits

/-- Bits that a list of operands takes up. -/
def bitLength (operands : List Operand) : Nat :=
  (operands.map fun operand => operand.format.width).sum

/-- Bytes that a list of operands takes up. -/
def payloadLength (operands : List Operand) : Nat := BitPlace.span (bitLength operands)

/-- Writes operands one behind the other from a bit offset on. -/
def packOperands (buffer : List UInt8) (bitOffset : Nat) :
    List Operand → Except CodecError (List UInt8)
  | [] => .ok buffer
  | operand :: rest => do
    let buffer ← packBits buffer bitOffset operand.format.width operand.value
    packOperands buffer (bitOffset + operand.format.width) rest

/-- Reads operands of the given formats one behind the other from a bit
offset on. -/
def readOperands (buffer : List UInt8) (bitOffset : Nat) :
    List OperandFormat → Except CodecError (List Operand)
  | [] => .ok []
  | format :: rest => do
    let value ← readOperand buffer bitOffset format.width format.signed
    let operands ← readOperands buffer (bitOffset + format.width) rest
    return ⟨format, value⟩ :: operands

end FieldMap
