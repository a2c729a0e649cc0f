import FieldMap.Listing.Basic
import FieldMap.Script.Stream
import FieldMap.Text.Blank

/-!
# Reading a listing

A listing is read line by line, and no line depends on another one. Blank
lines and comments, which start with `#` or `//`, give no instruction;
every other line gives one or is an error, and the first error decides.

Every argument is checked against the range of its operand, so that
encoding loses nothing. Jumps are the exception: in a symbolic listing
they hold label numbers, which say nothing about the distance, and they
are checked when the labels are resolved.
-/

namespace FieldMap

namespace Listing

open FieldMap.Text
open InstructionSet (info specialPayloadLength)

/-- Refuses an argument list of the wrong length. -/
def expectCount (mnemonic : String) (expected : Nat) (arguments : List (List Char)) :
    Except ListingFault Unit :=
  if arguments.length = expected then .ok ()
  else .error (.argumentCount mnemonic expected arguments.length)

/-- Reads a number that has to be a byte. -/
def readByte (role : ArgumentRole) (token : List Char) : Except ListingFault UInt8 := do
  let value ← readInteger token
  if 0 ≤ value ∧ value ≤ 255 then .ok (UInt8.ofNat value.toNat)
  else .error (.outOfRange (String.ofList token) role)

/-- Reads an operand of a given format. -/
def readArgument (argument : OperandFormat × List Char) : Except ListingFault Operand := do
  let (format, token) := argument
  let value ← readInteger token
  if format.kind.isJump || format.holds value then .ok ⟨format, value⟩
  else .error (.outOfRange (String.ofList token) (.operand format.kind))

/-- Reads a label. -/
def readLabel (mnemonic : String) (arguments : List (List Char)) :
    Except ListingFault Instruction :=
  match arguments with
  | [token] => do
    let value ← readInteger token
    if OperandKind.label.format.holds value then .ok (.label value.toNat)
    else .error (.outOfRange (String.ofList token) .labelNumber)
  | _ => .error (.argumentCount mnemonic 1 arguments.length)

/-- Reads a sub-instruction and the bytes of its payload. -/
def readSub (mnemonic : String) (arguments : List (List Char)) :
    Except ListingFault (UInt8 × List UInt8) :=
  match arguments with
  | [] => .error (.argumentCount mnemonic 1 0)
  | token :: rest => do
    let sub ← readByte .subInstruction token
    let payload ← rest.mapM (readByte .byte)
    return (sub, payload)

/-- Reads an instruction with a special sub-instruction. -/
def readSpecial (mnemonic : String) (arguments : List (List Char)) :
    Except ListingFault Instruction := do
  let (sub, payload) ← readSub mnemonic arguments
  expectCount mnemonic (specialPayloadLength sub + 1) arguments
  return .ofSpecial sub payload

/-- Reads an instruction that states its own length. -/
def readKawai (mnemonic : String) (arguments : List (List Char)) :
    Except ListingFault Instruction := do
  let (sub, payload) ← readSub mnemonic arguments
  (Instruction.ofKawai sub payload).mapError .codec

/-- How many raw bytes an instruction has: those of its row, and for
`0x1C` as many more as its fifth byte says, up to a limit. -/
def rawCount (id : UInt8) (bytes : List UInt8) : Nat :=
  let extra :=
    if id = InstructionSet.extendedId then
      (bytes[4]?.map fun n => min n.toNat InstructionSet.maxExtraLength).getD 0
    else 0
  (info id).length - 1 + extra

/-- Reads an instruction without a sub-instruction. -/
def readOrdinary (mnemonic : String) (id : UInt8) (arguments : List (List Char)) :
    Except ListingFault Instruction :=
  if (info id).kinds.isEmpty then do
    let bytes ← arguments.mapM (readByte .byte)
    expectCount mnemonic (rawCount id bytes) arguments
    return .ordinary id (bytes.map Operand.raw)
  else do
    expectCount mnemonic (info id).kinds.length arguments
    let operands ← ((info id).formats.zip arguments).mapM readArgument
    return .ordinary id operands

/-- Reads the instruction with a mnemonic, of which the case is
ignored. -/
def readInstruction (mnemonic : List Char) (arguments : List (List Char)) :
    Except ListingFault Instruction :=
  let name := String.ofList (mnemonic.map Char.toUpper)
  if name = "LABEL" then readLabel name arguments
  else if name = "SPECIAL" then readSpecial name arguments
  else if name = "KAWAI" then readKawai name arguments
  else match InstructionSet.idOf? mnemonic with
    | none => .error (.unknownMnemonic name)
    | some id => readOrdinary name id arguments

/-- Whether a line, trimmed of blanks, is a comment. -/
def isComment : List Char → Bool
  | '#' :: _ | '/' :: '/' :: _ => true
  | _ => false

/-- **Reads a line**, which gives an instruction unless it is blank or a
comment. -/
def readLine (line : List Char) : Except ListingFault (Option Instruction) :=
  let line := trim line
  if isComment line then .ok none
  else match words line with
    | [] => .ok none
    | mnemonic :: arguments => (readInstruction mnemonic arguments).map some

/-- Reads lines from a line number on, behind the instructions that are
`done`, which are kept in reverse. -/
def readLines (done : Script) (number : Nat) : List (List Char) → Except ListingError Script
  | [] => .ok done.reverse
  | line :: rest =>
    match readLine line with
    | .error fault => .error ⟨number, fault⟩
    | .ok none => readLines done (number + 1) rest
    | .ok (some instruction) => readLines (instruction :: done) (number + 1) rest

/-- **Reads a listing.** -/
def parse (text : String) : Except ListingError Script := readLines [] 1 (lines text.toList)

end Listing

end FieldMap
