import FieldMap.Script.BitLayout
import FieldMap.Script.InstructionSet

/-!
# Instructions

A script is a list of instructions. Most of them are *ordinary*: an id
and operands. Two ids open a second level: a *special* instruction has a
sub-instruction with a payload of at most two bytes, a *kawai* instruction
one with a payload of its own length. A *label* marks the target of jumps
in the symbolic form of a script; it takes up no bytes.

A jump holds its distance in one operand. Two ids count it backwards from
their own start, all others forwards from the first byte of that operand.
-/

namespace FieldMap

/-- **An instruction of a script.** -/
inductive Instruction where
  | ordinary (id : UInt8) (operands : List Operand)
  | special (sub : UInt8) (operands : List Operand)
  | kawai (sub : UInt8) (operands : List Operand)
  /-- A mark that jumps refer to by its number. -/
  | label (number : Nat)
deriving DecidableEq, Repr

namespace Instruction

open InstructionSet

/-- The id of an instruction; that of labels is beyond a byte. -/
def id : Instruction → Nat
  | ordinary id _ => id.toNat
  | special _ _ => specialId.toNat
  | kawai _ _ => kawaiId.toNat
  | label _ => labelId

/-- The id of the sub-instruction, where there is one. -/
def subId? : Instruction → Option UInt8
  | special sub _ | kawai sub _ => some sub
  | _ => none

/-- The mnemonic of an instruction, or of its sub-instruction if that has
one. -/
def mnemonic : Instruction → String
  | ordinary id _ => (info id).mnemonic
  | special sub _ => (specialMnemonic? sub).getD (info specialId).mnemonic
  | kawai sub _ => (kawaiMnemonic? sub).getD (info kawaiId).mnemonic
  | label _ => labelInfo.mnemonic

/-- The operands of an instruction; a label has none. -/
def operands : Instruction → List Operand
  | ordinary _ operands | special _ operands | kawai _ operands => operands
  | label _ => []

/-- The instruction with other operands. -/
def withOperands : Instruction → List Operand → Instruction
  | ordinary id _, operands => ordinary id operands
  | special sub _, operands => special sub operands
  | kawai sub _, operands => kawai sub operands
  | label number, _ => label number

/-- The instruction with another value in one operand. -/
def setValue (instruction : Instruction) (index : Nat) (value : Int) : Instruction :=
  instruction.withOperands
    (instruction.operands.modify index fun operand => ⟨operand.format, value⟩)

/-- Whether an instruction is a label. -/
def isLabel : Instruction → Bool
  | label _ => true
  | _ => false

/-- **Length inside a script.** A label takes up no bytes. -/
def length : Instruction → Nat
  | ordinary _ operands => 1 + payloadLength operands
  | special _ operands => 2 + payloadLength operands
  | kawai _ operands => kawaiHeaderLength + payloadLength operands
  | label _ => 0

/-- Which operand holds the distance of a jump. -/
def jumpIndex? : Instruction → Option Nat
  | ordinary _ operands => operands.findIdx? fun operand => operand.format.kind.isJump
  | _ => none

/-- Whether an instruction is a jump. -/
def isJump (instruction : Instruction) : Bool := instruction.jumpIndex?.isSome

/-- Whether the distance of a jump counts backwards from the start of the
instruction. -/
def isBackJump : Instruction → Bool
  | ordinary id _ => id == 0x12 || id == 0x13
  | _ => false

/-- The byte of the instruction at which its distance is stored. -/
def jumpOffset? (instruction : Instruction) : Option Nat :=
  instruction.jumpIndex?.map fun index =>
    1 + bitLength (instruction.operands.take index) / 8

/-! ## Building instructions -/

/-- A special instruction. Missing payload is zero, and what is too much
is dropped. -/
def ofSpecial (sub : UInt8) (payload : List UInt8) : Instruction :=
  let length := specialPayloadLength sub
  special sub (((payload ++ List.replicate length 0).take length).map Operand.raw)

/-- A self-sized instruction, if its length byte can state the payload. -/
def ofKawai (sub : UInt8) (payload : List UInt8) : Except CodecError Instruction :=
  if payload.length ≤ kawaiMaxPayload then .ok (kawai sub (payload.map Operand.raw))
  else .error (.wrongSize .kawaiPayload kawaiMaxPayload payload.length)

/-- The operands of an ordinary instruction, all of them zero. -/
def zeroOperands (id : UInt8) : List Operand :=
  if (info id).kinds.isEmpty then
    List.replicate ((info id).length - 1) (Operand.raw 0)
  else (info id).formats.map fun format => ⟨format, 0⟩

/-- **The plainest instruction with an id**: every operand zero, and no
payload. -/
def blank (id : Nat) : Except CodecError Instruction :=
  if id = labelId then .ok (label 0)
  else if 256 ≤ id then .error (.unknownId id)
  else
    let byte := UInt8.ofNat id
    if byte = specialId then .ok (ofSpecial 0xFF [])
    else if byte = kawaiId then ofKawai 0 []
    else .ok (ordinary byte (zeroOperands byte))

end Instruction

end FieldMap
