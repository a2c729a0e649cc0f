import FieldMap.Lzs

/-!
# Field files

A field file holds everything about one map in nine sections. It opens
with two zero bytes, the number of sections, and the position of each;
at its position stands the size of the section and then its bytes.

Reading follows the positions wherever they lead. Writing puts the
sections one behind the other in their order, so that a file need not come
back byte for byte, but its sections do.
-/

namespace FieldMap

/-- **The sections of a field file.** -/
inductive SectionKind where
  | scripts
  | camera
  | modelLoader
  | palette
  | walkmesh
  | tileMap
  | encounter
  | triggers
  | background
deriving DecidableEq, Repr

namespace SectionKind

/-- The sections in stored order. -/
def all : List SectionKind :=
  [scripts, camera, modelLoader, palette, walkmesh, tileMap, encounter, triggers, background]

/-- The position of a section among the sections. -/
def index : SectionKind → Nat
  | scripts => 0
  | camera => 1
  | modelLoader => 2
  | palette => 3
  | walkmesh => 4
  | tileMap => 5
  | encounter => 6
  | triggers => 7
  | background => 8

/-- The tag of a section in written data. -/
def tag : SectionKind → String
  | scripts => "Scripts"
  | camera => "Camera"
  | modelLoader => "ModelLoader"
  | palette => "Palette"
  | walkmesh => "Walkmesh"
  | tileMap => "TileMap"
  | encounter => "Encounter"
  | triggers => "Triggers"
  | background => "Background"

/-- The section that a tag stands for. -/
def ofTag? (text : String) : Option SectionKind := all.find? fun kind => kind.tag == text

end SectionKind

/-- **A field file**: the bytes of each section, without their size. -/
structure FieldFile where
  scripts : Bytes
  camera : Bytes
  modelLoader : Bytes
  palette : Bytes
  walkmesh : Bytes
  tileMap : Bytes
  encounter : Bytes
  triggers : Bytes
  background : Bytes
deriving DecidableEq

namespace FieldFile

/-- The number of sections. -/
def sectionCount : Nat := 9

/-- The length of what comes before the first section. -/
def headerLength : Nat := 2 + 4 + 4 * sectionCount

/-- The bytes of a section. -/
def content (file : FieldFile) : SectionKind → Bytes
  | .scripts => file.scripts
  | .camera => file.camera
  | .modelLoader => file.modelLoader
  | .palette => file.palette
  | .walkmesh => file.walkmesh
  | .tileMap => file.tileMap
  | .encounter => file.encounter
  | .triggers => file.triggers
  | .background => file.background

/-- The file with other bytes in one section. -/
def setContent (file : FieldFile) (kind : SectionKind) (data : Bytes) : FieldFile :=
  match kind with
  | .scripts => { file with scripts := data }
  | .camera => { file with camera := data }
  | .modelLoader => { file with modelLoader := data }
  | .palette => { file with palette := data }
  | .walkmesh => { file with walkmesh := data }
  | .tileMap => { file with tileMap := data }
  | .encounter => { file with encounter := data }
  | .triggers => { file with triggers := data }
  | .background => { file with background := data }

/-- A section holds what was put into it last. -/
theorem content_setContent (file : FieldFile) (kind other : SectionKind) (data : Bytes) :
    (file.setContent kind data).content other =
      if other = kind then data else file.content other := by
  cases kind <;> cases other <;> rfl

/-- The sections in stored order. -/
def contents (file : FieldFile) : List Bytes := SectionKind.all.map file.content

/-- Reads the section to which the header's entry for it leads. -/
def readSection (data : Bytes) (kind : SectionKind) : Except CodecError Bytes := do
  let position ← data.readLong .sectionPosition (6 + 4 * kind.index)
  let size ← data.readLong .sectionSize position
  data.slice .sectionData (position + 4) size

/-- Reads the nine sections. -/
def readSections (data : Bytes) : Except CodecError FieldFile := do
  let scripts ← readSection data .scripts
  let camera ← readSection data .camera
  let modelLoader ← readSection data .modelLoader
  let palette ← readSection data .palette
  let walkmesh ← readSection data .walkmesh
  let tileMap ← readSection data .tileMap
  let encounter ← readSection data .encounter
  let triggers ← readSection data .triggers
  let background ← readSection data .background
  return ⟨scripts, camera, modelLoader, palette, walkmesh, tileMap, encounter, triggers, background⟩

/-- **Reads a field file.** -/
def parse (data : Bytes) : Except CodecError FieldFile := do
  let _ ← data.slice .fieldHeader 0 headerLength
  let count ← data.readLong .sectionCount 2
  if count = sectionCount then readSections data
  else .error (.wrongSize .fieldSectionCount sectionCount count)

/-- Reads a compressed field file. -/
def parseCompressed (data : Bytes) : Except CodecError FieldFile := do
  let data ← Lzs.decompress data
  parse data

/-- The positions of sections that stand one behind the other. -/
def positions (contents : List Bytes) : List Nat :=
  (contents.scanl (fun position content => position + content.size + 4) headerLength).take
    contents.length

/-- **Writes a field file**, not compressed. -/
def save (file : FieldFile) : Bytes :=
  let header := [0, 0] ++ toLittleEndian 4 sectionCount ++
    (positions file.contents).flatMap (toLittleEndian 4)
  file.contents.foldl (fun out content => out ++ toLittleEndian 4 content.size ++ content)
    header.toArray

end FieldFile

end FieldMap
