import FieldMap.Script.Encoding

/-!
# Scripts

A script is a list of instructions, and its bytecode is what they encode
to, one behind the other. `Script.decode` splits bytecode into
instructions; errors then give offsets from the start of the script.

Labels may stand in a script. They take up no bytes, so an instruction
behind a label starts where the label stands.
-/

namespace FieldMap

-- the sum of no numbers is the zero of the core library, whatever else is imported
attribute [local instance (high)] Zero.ofOfNat0

/-- **A script**: instructions in the order in which they run. -/
abbrev Script := List Instruction

namespace Script

/-- Decodes the rest of a bytecode string from an offset on, behind the
instructions that are `done`, which are kept in reverse. -/
def decodeFrom (done : Script) (offset : Nat) (bytes : List UInt8) : Except CodecError Script :=
  match bytes with
  | [] => .ok done.reverse
  | b :: rest =>
    match Instruction.decode (b :: rest) with
    | .error e => .error (e.shift offset)
    | .ok instruction =>
      decodeFrom (instruction :: done) (offset + max instruction.length 1)
        (rest.drop (max instruction.length 1 - 1))
termination_by bytes.length
decreasing_by simp only [List.length_drop, List.length_cons]; omega

/-- **Splits bytecode into instructions.** -/
def decode (bytes : List UInt8) : Except CodecError Script := decodeFrom [] 0 bytes

/-- Encodes the instructions of a script behind the bytes that are
`done`. -/
def encodeFrom (done : Array UInt8) : Script → Except CodecError (List UInt8)
  | [] => .ok done.toList
  | instruction :: rest =>
    if instruction.isLabel then encodeFrom done rest
    else match instruction.encode with
      | .error e => .error e
      | .ok bytes => encodeFrom (done ++ bytes) rest

/-- **The bytecode of a script.** Labels leave no bytes. -/
def encode (script : Script) : Except CodecError (List UInt8) := encodeFrom #[] script

/-- Bytes that a script takes up. -/
def byteLength (script : Script) : Nat := (script.map Instruction.length).sum

/-- The start of every instruction, and last the end of the script. -/
def starts (script : Script) : List Nat :=
  script.scanl (fun offset instruction => offset + instruction.length) 0

end Script

end FieldMap
