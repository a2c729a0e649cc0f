import FieldMap.Listing.Parser
import FieldMap.Script.Labels

/-!
# Assembling a listing

A listing is assembled in one of two ways. Where its jumps hold the
numbers of labels, the labels are resolved. Where they hold distances,
each distance has to fit its operand, and labels are dropped. Either way
every value that is encoded is in range, so nothing is cut off.
-/

namespace FieldMap.Listing

/-- **Why a listing cannot be assembled.** -/
inductive AssemblyError where
  | listing (error : ListingError)
  /-- The distance of a jump does not fit its operand. -/
  | jump (index : Nat) (error : CodecError)
  | codec (error : CodecError)
deriving DecidableEq, Repr

/-- The wording of an error and of the errors below it, outermost first. -/
def AssemblyError.messages : AssemblyError → List String
  | .listing error => error.message :: error.causes
  | .jump index error => ["jump at opcode " ++ Text.decimal index, error.message]
  | .codec error => [error.message]

/-- What is wrong with the distance of a jump, if anything is. -/
def distanceFault? (place : PlacedInstruction) : Option AssemblyError :=
  match place.instruction.jumpIndex?.bind fun index => place.instruction.operands[index]? with
  | none => none
  | some operand =>
    match operand.check with
    | .ok _ => none
    | .error e => some (.jump place.index e)

/-- Checks the distances of all jumps, of which the first that does not fit
decides. -/
def checkDistances (script : Script) : Except AssemblyError Script :=
  match script.placed.findSome? distanceFault? with
  | some e => .error e
  | none => .ok script

/-- The script of a listing with every jump in the form of bytecode. -/
def resolve (rawJumps : Bool) (script : Script) : Except AssemblyError Script :=
  if rawJumps then checkDistances script else (Script.resolveLabels script).mapError .codec

/-- **The bytecode of a listing**, whose jumps hold distances if
`rawJumps` is set and the numbers of labels if not. -/
def assemble (rawJumps : Bool) (text : String) : Except AssemblyError (List UInt8) := do
  let script ← (parse text).mapError AssemblyError.listing
  let resolved ← resolve rawJumps script
  (Script.encode resolved).mapError .codec

end FieldMap.Listing
