import FieldMap.Script.Stream

/-!
# Writing a listing

Each instruction gives one line: the mnemonic and the values of the
operands. Instructions with a sub-instruction name it by its id in base
sixteen, and a label gives its number.
-/

namespace FieldMap

open FieldMap.Text

/-- The values of operands, each behind a blank. -/
def Operand.arguments (operands : List Operand) : String :=
  String.join (operands.map fun operand => " " ++ signedDecimal operand.value)

/-- The line of an instruction, without its end. -/
def Instruction.line : Instruction → String
  | .ordinary id operands => (InstructionSet.info id).mnemonic ++ Operand.arguments operands
  | .special sub operands => "SPECIAL " ++ hexId 2 sub.toNat ++ Operand.arguments operands
  | .kawai sub operands => "KAWAI " ++ hexId 2 sub.toNat ++ Operand.arguments operands
  | .label number => "LABEL " ++ decimal number

/-- **The listing of a script.** Every line ends with a line feed. -/
def Script.listing (script : Script) : String :=
  String.join (script.map fun instruction => instruction.line ++ "\n")

end FieldMap
