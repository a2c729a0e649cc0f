import FieldMap.Json.Value
import FieldMap.Script.Stream

/-!
# Instructions in JSON

An instruction is an object whose first member says which of the four
forms it has. Its operands are written with their whole format, so that
the reader needs no instruction table.
-/

namespace FieldMap

/-- A format as JSON. -/
def OperandFormat.toJson (format : OperandFormat) : Json :=
  .object [("kind", .string format.kind.tag), ("bit_width", .nat format.width),
    ("signed", .bool format.signed)]

/-- An operand as JSON. -/
def Operand.toJson (operand : Operand) : Json :=
  .object [("descriptor", operand.format.toJson), ("value", .number operand.value)]

/-- An instruction as JSON. -/
def Instruction.toJson (instruction : Instruction) : Json :=
  let fields := Json.array (instruction.operands.map Operand.toJson)
  match instruction with
  | .ordinary id _ =>
    .object [("kind", .string "Ordinary"), ("id", .nat id.toNat), ("fields", fields)]
  | .special sub _ =>
    .object [("kind", .string "Special"), ("sub_id", .nat sub.toNat), ("fields", fields)]
  | .kawai sub _ =>
    .object [("kind", .string "Kawai"), ("sub_id", .nat sub.toNat), ("fields", fields)]
  | .label number => .object [("kind", .string "Label"), ("target", .nat number)]

/-- A script as JSON. -/
def Script.toJson (script : Script) : Json := .array (script.map Instruction.toJson)

end FieldMap
