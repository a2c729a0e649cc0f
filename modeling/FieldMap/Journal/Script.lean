import FieldMap.Journal.Note
import FieldMap.Script.Labels

/-!
# Notes on scripts

Decoding notes every instruction of unknown meaning, also the one at which
it fails; inserting labels notes their number when it succeeds.
-/

namespace FieldMap

/-- What decoding the instruction that starts with a byte leaves. -/
def Instruction.decodeNotes (id : UInt8) : List Note :=
  let info := InstructionSet.info id
  if info.documented then [] else [.undocumented id info.mnemonic]

namespace Script

/-- What decoding bytecode leaves. -/
def decodeNotes (bytes : List UInt8) : List Note :=
  match bytes with
  | [] => []
  | b :: rest =>
    Instruction.decodeNotes b ++
      match Instruction.decode (b :: rest) with
      | .error _ => []
      | .ok instruction => decodeNotes (rest.drop (max instruction.length 1 - 1))
termination_by bytes.length
decreasing_by simp only [List.length_drop, List.length_cons]; omega

/-- What inserting labels leaves. -/
def insertLabelsNotes (script : Script) : List Note :=
  match script.labelCount with
  | .error _ => []
  | .ok count => [.labelsInserted count]

/-- What a round trip through the symbolic form leaves. -/
def roundTripNotes (bytes : List UInt8) : List Note :=
  decodeNotes bytes ++
    match decode bytes with
    | .error _ => []
    | .ok script => script.insertLabelsNotes

end Script

end FieldMap
