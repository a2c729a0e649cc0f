import FieldMap.Script.Stream

/-!
# Jumps and labels

In bytecode a jump holds a distance, which changes meaning whenever
something is put between the jump and its target. In the *symbolic* form
of a script it holds the number of a label, and the label stands in front
of the target. `Script.insertLabels` leads from the first form to the
second and `Script.resolveLabels` back.

A jump may lead to a boundary only: the start of an instruction that takes
up bytes, or the end of the script. Labels are numbered from zero in the
order of the boundaries that they mark, and only boundaries that some jump
leads to are marked. A number is a word of 32 bits: with more than
`2 ^ 32` labels the numbers start over at zero.

Since labels take up no bytes, inserting them moves nothing, and the
distances that come back are the ones that were there.
-/

namespace FieldMap

namespace Instruction

/-- The operand that holds the distance of a jump, and its value. -/
def jumpValue? (instruction : Instruction) : Option (Nat × Int) :=
  instruction.jumpIndex?.bind fun index =>
    instruction.operands[index]?.map fun operand => (index, operand.value)

/-- Where a jump that starts at an offset leads: back from its start, or
on from the byte that holds the distance. -/
def target? (instruction : Instruction) (start : Nat) : Option Int :=
  instruction.jumpValue?.map fun (_, distance) =>
    if instruction.isBackJump then start - distance
    else start + instruction.jumpOffset?.getD 1 + distance

/-- The distance that a jump at an offset needs in order to lead to a
target. -/
def distanceTo (instruction : Instruction) (start target : Nat) : Int :=
  if instruction.isBackJump then start - target
  else (target : Int) - start - instruction.jumpOffset?.getD 1

end Instruction

/-- An instruction at its place in a script. -/
structure PlacedInstruction where
  instruction : Instruction
  /-- The byte at which it starts. -/
  start : Nat
  /-- Its position in the list of instructions. -/
  index : Nat

/-- An instruction with the boundary to which it jumps, if it is a
jump. -/
structure JumpSite where
  instruction : Instruction
  start : Nat
  target? : Option Nat

namespace Script

/-- The instructions of a script with their places. -/
def placed (script : Script) : List PlacedInstruction :=
  (script.zip script.starts).zipIdx.map fun ((instruction, start), index) =>
    ⟨instruction, start, index⟩

/-- **The boundaries of a script**, in ascending order: the start of every
instruction that takes up bytes, and the end. -/
def boundaries (script : Script) : List Nat :=
  starts (script.filter fun instruction => !instruction.isLabel)

/-- Finds the boundary to which an instruction jumps, and refuses a jump
to any other byte. -/
def jumpSite (boundaries : List Nat) (place : PlacedInstruction) : Except CodecError JumpSite :=
  match place.instruction.target? place.start with
  | none => .ok ⟨place.instruction, place.start, none⟩
  | some target =>
    if 0 ≤ target ∧ boundaries.contains target.toNat then
      .ok ⟨place.instruction, place.start, some target.toNat⟩
    else .error (.jumpOffBoundary place.index target)

/-- **The number of a label**: its place among the labels, as a word of 32
bits. -/
def labelNumber (place : Nat) : Nat := (UInt32.ofNat place).toNat

/-- The label at a boundary, if the boundary is marked. -/
def labelAt (marked : List Nat) (boundary : Nat) : Script :=
  match marked.idxOf? boundary with
  | some place => [.label (labelNumber place)]
  | none => []

/-- The instruction with the number of the label at its target in the
place of the distance. -/
def JumpSite.symbolic (marked : List Nat) (site : JumpSite) : Instruction :=
  match site.instruction.jumpValue?, site.target? with
  | some (index, _), some target =>
    site.instruction.setValue index (labelNumber (marked.idxOf target))
  | _, _ => site.instruction

/-- **Marks the targets of all jumps by labels** and lets the jumps refer
to them. A jump that does not lead to a boundary is an error, and the
first one decides. -/
def insertLabels (script : Script) : Except CodecError Script := do
  let sites ← script.placed.mapM (jumpSite script.boundaries)
  let targets := sites.filterMap JumpSite.target?
  let marked := script.boundaries.filter targets.contains
  return (sites.flatMap fun site => labelAt marked site.start ++ [JumpSite.symbolic marked site]) ++
    labelAt marked script.byteLength

/-- How many labels `insertLabels` inserts: as many as there are
boundaries to which a jump leads. -/
def labelCount (script : Script) : Except CodecError Nat := do
  let sites ← script.placed.mapM (jumpSite script.boundaries)
  let targets := sites.filterMap JumpSite.target?
  return (script.boundaries.filter targets.contains).length

/-- The first label whose number has been used by a label before it. -/
def redefinition? (seen : List Nat) : List PlacedInstruction → Option CodecError
  | [] => none
  | place :: rest =>
    match place.instruction with
    | .label number =>
      if seen.contains number then some (.labelRedefined place.index number)
      else redefinition? (number :: seen) rest
    | _ => redefinition? seen rest

/-- The labels of a script with the bytes that they mark. -/
def labelPlaces (places : List PlacedInstruction) : List (Nat × Nat) :=
  places.filterMap fun place =>
    match place.instruction with
    | .label number => some (number, place.start)
    | _ => none

/-- The byte that the label with a number marks. -/
def labelPlace? (labels : List (Nat × Nat)) (number : Int) : Option Nat :=
  if 0 ≤ number then labels.lookup number.toNat else none

/-- Gives a jump the distance to the label that it names. -/
def resolveJump (labels : List (Nat × Nat)) (place : PlacedInstruction) :
    Except CodecError Instruction :=
  match place.instruction.jumpValue? with
  | none => .ok place.instruction
  | some (index, number) =>
    match labelPlace? labels number with
    | none => .error (.jumpOffBoundary place.index number)
    | some target =>
      let distance := place.instruction.distanceTo place.start target
      let max := (place.instruction.operands[index]?.map fun operand => operand.format.max).getD 0
      if 0 ≤ distance ∧ distance ≤ max then .ok (place.instruction.setValue index distance)
      else .error (.jumpOutOfRange place.index distance)

/-- **Gives every jump the distance to its label and drops the labels.**
A label number that stands twice is an error, whatever the jumps are;
otherwise the first jump that names no label, or whose distance does not
fit, decides. -/
def resolveLabels (script : Script) : Except CodecError Script :=
  match redefinition? [] script.placed with
  | some e => .error e
  | none =>
    (script.placed.filter fun place => !place.instruction.isLabel).mapM
      (resolveJump (labelPlaces script.placed))

/-- Takes a script through its symbolic form and back, and compares the
bytecode that comes out with the bytecode that went in. -/
def roundTrip (bytes : List UInt8) : Except CodecError Unit := do
  let script ← decode bytes
  let symbolic ← script.insertLabels
  let resolved ← resolveLabels symbolic
  let encoded ← encode resolved
  if encoded = bytes then .ok ()
  else .error (.wrongSize .encodedScript bytes.length encoded.length)

end Script

end FieldMap
