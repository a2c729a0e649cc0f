import FieldMap.Bytes
import FieldMap.Json.Value
import FieldMap.Text.Utf8

/-!
# The script section

The first section of a field file holds the scripts of its entities and
its dialog texts. Behind a header of 32 bytes stand the names of the
entities, the offsets of sound blocks, and for each entity the start of
its 32 scripts; the bytecode follows, and then the texts.

Nothing says where a script ends. It ends where the next one starts, of
whatever entity, or where the texts start. Slots that are not used repeat
the start of the slot before them; `ScriptSection.scripts` passes over
such a slot, and looks no further back than one slot.
-/

namespace FieldMap

/-- The header of a script section. -/
structure ScriptHeader where
  version : Nat
  entityCount : Nat
  modelCount : Nat
  /-- Where the texts start. -/
  textOffset : Nat
  soundCount : Nat
  scale : Nat
  creator : String
  name : String
deriving DecidableEq, Repr

/-- **An entity**: its name and where each of its scripts starts. -/
structure Entity where
  name : String
  positions : List Nat
deriving DecidableEq, Repr

/-- **A parsed script section**, with the bytes it was read from. -/
structure ScriptSection where
  data : Bytes
  header : ScriptHeader
  entities : List Entity
  soundOffsets : List Nat
deriving DecidableEq

/-- One of the scripts of a section. -/
structure ScriptSlot where
  entity : Nat
  index : Nat
  /-- The bytecode, if its place lies in the section. -/
  bytecode : Except CodecError Bytes

namespace ScriptHeader

/-- The length of a stored header. -/
def length : Nat := 32

/-- The length of a stored name. -/
def nameLength : Nat := 8

/-- The text of a stored name, which ends before its first zero byte. -/
def storedName (bytes : Bytes) : String :=
  String.ofList (Text.Utf8.decodeLossy (bytes.toList.takeWhile (· != 0)))

/-- Reads a header. -/
def read (data : Bytes) : Except CodecError ScriptHeader := do
  let _ ← data.slice .scriptHeader 0 length
  let version ← data.readWord .version 0
  let entityCount ← data.readByte .entityCount 2
  let modelCount ← data.readByte .modelCount 3
  let textOffset ← data.readWord .textOffset 4
  let soundCount ← data.readWord .soundCount 6
  let scale ← data.readWord .scale 8
  let creator ← data.slice .creator 16 nameLength
  let name ← data.slice .fieldName 24 nameLength
  return ⟨version, entityCount, modelCount, textOffset, soundCount, scale, storedName creator,
    storedName name⟩

/-- A header as JSON. -/
def toJson (header : ScriptHeader) : Json :=
  .object [("version", .nat header.version), ("entity_count", .nat header.entityCount),
    ("model_count", .nat header.modelCount), ("text_offset", .nat header.textOffset),
    ("akao_count", .nat header.soundCount), ("scale", .nat header.scale),
    ("creator", .string header.creator), ("name", .string header.name)]

end ScriptHeader

namespace ScriptSection

/-- How many scripts an entity has. -/
def scriptsPerEntity : Nat := 32

/-- **Reads items one behind the other**, one for each entry of a list: each
starts where the one in front of it ends. -/
def readEach {α β : Type} (read : β → Nat → Except CodecError (α × Nat)) (position : Nat) :
    List β → Except CodecError (List α × Nat)
  | [] => .ok ([], position)
  | b :: rest => do
    let (item, next) ← read b position
    let (items, stop) ← readEach read next rest
    return (item :: items, stop)

/-- Reads the name of an entity, and gives the place behind it. -/
def readName (data : Bytes) (position : Nat) : Except CodecError (String × Nat) := do
  let name ← data.slice .entityName position ScriptHeader.nameLength
  return (ScriptHeader.storedName name, position + ScriptHeader.nameLength)

/-- Reads the offset of a sound block, and gives the place behind it. -/
def readSound (data : Bytes) (position : Nat) : Except CodecError (Nat × Nat) := do
  let offset ← data.readLong .soundOffset position
  return (offset, position + 4)

/-- Reads the start of a script, and gives the place behind it. -/
def readStart (data : Bytes) (position : Nat) : Except CodecError (Nat × Nat) := do
  let start ← data.readWord .scriptPosition position
  return (start, position + 2)

/-- Reads the starts of the scripts of an entity with a name. -/
def readEntity (data : Bytes) (name : String) (position : Nat) :
    Except CodecError (Entity × Nat) := do
  let (positions, stop) ← readEach (fun _ => readStart data) position (List.range scriptsPerEntity)
  return (⟨name, positions⟩, stop)

/-- **Reads a script section.** -/
def parse (data : Bytes) : Except CodecError ScriptSection := do
  let header ← ScriptHeader.read data
  let (names, sounds) ←
    readEach (fun _ => readName data) ScriptHeader.length (List.range header.entityCount)
  let (soundOffsets, starts) ←
    readEach (fun _ => readSound data) sounds (List.range header.soundCount)
  let (entities, _) ← readEach (readEntity data) starts names
  if header.textOffset ≤ data.size then return ⟨data, header, entities, soundOffsets⟩
  else .error (.wrongSize .textStart data.size header.textOffset)

/-- The places at which a script may end: every start of a script, and the
start of the texts. -/
def boundaries (s : ScriptSection) : List Nat :=
  s.entities.flatMap Entity.positions ++ [s.header.textOffset]

/-- Where a script ends that starts at a place. -/
def scriptEnd (s : ScriptSection) (start : Nat) : Nat :=
  ((s.boundaries.filter (start < ·)).min?).getD start

/-- Where a script of an entity starts. -/
def scriptStart? (s : ScriptSection) (entity index : Nat) : Option Nat :=
  s.entities[entity]?.bind fun e => e.positions[index]?

/-- **The bytecode of a script.** -/
def script (s : ScriptSection) (entity index : Nat) : Except CodecError Bytes :=
  match s.scriptStart? entity index with
  | none =>
    .error (.wrongSize .scriptIndex (s.entities.length * scriptsPerEntity)
      (entity * scriptsPerEntity + index))
  | some start => s.data.slice .script start (s.scriptEnd start - start)

/-- Whether a slot has a start other than the slot before it. -/
def startsNew (positions : List Nat) (slot : Nat) : Bool :=
  slot == 0 || positions[slot]? != positions[slot - 1]?

/-- **The scripts of all entities**, without the slots that repeat the slot
before them. -/
def scripts (s : ScriptSection) : List ScriptSlot :=
  s.entities.zipIdx.flatMap fun (e, entity) =>
    ((List.range scriptsPerEntity).filter (startsNew e.positions)).map fun index =>
      ⟨entity, index, s.script entity index⟩

/-- The number of dialog texts. -/
def textCount (s : ScriptSection) : Except CodecError Nat :=
  s.data.readWord .textCount s.header.textOffset

/-- The byte that ends a dialog text. -/
def textEnd : UInt8 := 0xFF

/-- **The bytes of a dialog text**, up to its end mark or the end of the
section. -/
def text (s : ScriptSection) (index : Nat) : Except CodecError Bytes := do
  let base := s.header.textOffset
  let position ← s.data.readWord .textPosition (base + 2 + 2 * index)
  if base + position ≤ s.data.size then
    return (s.data.extract (base + position) s.data.size).takeWhile (· != textEnd)
  else .error (.truncated .text (base + position) 1 0)

end ScriptSection

end FieldMap
