import FieldMap.Bytes
import FieldMap.Json.Value

/-!
# Random encounters

The encounter section holds two tables of random battles, the normal and
the special one. A table says whether it is enabled and how fast battles
come, and lists ten battles with their probabilities: six regular ones and
four for attacks from behind, from the side and from both sides. Two bytes
without meaning close it, which are kept.

A battle is one word: its number in the low ten bits, its probability in
the high six.
-/

namespace FieldMap

/-- **One packed encounter.** -/
structure Encounter where
  raw : UInt16
deriving DecidableEq, Repr

namespace Encounter

/-- Packs the low ten bits of a battle's number and the low six of its
probability. -/
def ofParts (battle : UInt16) (probability : UInt8) : Encounter :=
  let low : UInt16 := battle &&& 0x3FF
  let high : UInt8 := probability &&& 0x3F
  ⟨low ||| (high.toUInt16 <<< 10)⟩

/-- The number of the battle. -/
def battle (encounter : Encounter) : UInt16 := encounter.raw &&& 0x3FF

/-- The probability of the battle, in parts of 64. -/
def probability (encounter : Encounter) : UInt8 := (encounter.raw >>> 10).toUInt8

end Encounter

/-- **A table of random battles.** -/
structure EncounterTable where
  enabled : UInt8
  rate : UInt8
  /-- The regular battles. -/
  standard : Vector Encounter 6
  /-- Two attacks from behind, one from the side, one from both sides. -/
  special : Vector Encounter 4
  /-- Closing bytes without meaning. -/
  pad : UInt16
deriving DecidableEq

namespace EncounterTable

/-- The length of a stored table. -/
def length : Nat := 24

/-- The table with all bytes zero. -/
def blank : EncounterTable :=
  ⟨0, 0, Vector.replicate 6 ⟨0⟩, Vector.replicate 4 ⟨0⟩, 0⟩

/-- Whether battles come at all. -/
def isEnabled (table : EncounterTable) : Bool := table.enabled != 0

/-- All battles, the regular ones first. -/
def battles (table : EncounterTable) : List Encounter :=
  table.standard.toList ++ table.special.toList

/-- The table with another battle in one place, the regular ones first. -/
def setBattle (table : EncounterTable) (slot : Nat) (encounter : Encounter) : EncounterTable :=
  if slot < 6 then { table with standard := table.standard.setIfInBounds slot encounter }
  else { table with special := table.special.setIfInBounds (slot - 6) encounter }

/-- The table whose bytes start at an offset. -/
def readAt (data : Bytes) (offset : Nat) : EncounterTable where
  enabled := data.byteAt offset
  rate := data.byteAt (offset + 1)
  standard := Vector.ofFn fun i => ⟨data.wordAt (offset + 2 + 2 * i.val)⟩
  special := Vector.ofFn fun i => ⟨data.wordAt (offset + 14 + 2 * i.val)⟩
  pad := data.wordAt (offset + 22)

/-- The bytes of a table. -/
def bytes (table : EncounterTable) : List UInt8 :=
  [table.enabled, table.rate] ++
    table.battles.flatMap (fun encounter => toLittleEndian 2 encounter.raw.toNat) ++
    toLittleEndian 2 table.pad.toNat

/-- A table as JSON. -/
def toJson (table : EncounterTable) : Json :=
  let raw (encounters : List Encounter) := Json.array (encounters.map fun e => .nat e.raw.toNat)
  .object [("enabled", .nat table.enabled.toNat), ("rate", .nat table.rate.toNat),
    ("standard", raw table.standard.toList), ("special", raw table.special.toList),
    ("pad", .nat table.pad.toNat)]

end EncounterTable

/-- Which of the two tables. -/
inductive TableId where
  | normal
  | special
deriving DecidableEq, Repr

namespace TableId

/-- Both tables, in stored order. -/
def all : List TableId := [normal, special]

/-- The name of a table. -/
def name : TableId → String
  | normal => "Normal"
  | special => "Special"

/-- The table that a name stands for. -/
def ofName? (text : String) : Option TableId := all.find? fun id => id.name == text

end TableId

/-- **The encounter section.** -/
structure EncounterSection where
  normal : EncounterTable
  special : EncounterTable
deriving DecidableEq

namespace EncounterSection

/-- The length of a stored section. -/
def length : Nat := 2 * EncounterTable.length

/-- The section with all bytes zero. -/
def blank : EncounterSection := ⟨.blank, .blank⟩

/-- **Reads the encounter section.** -/
def parse (data : Bytes) : Except CodecError EncounterSection :=
  if data.size = length then
    .ok ⟨EncounterTable.readAt data 0, EncounterTable.readAt data EncounterTable.length⟩
  else .error (.wrongSize .encounterSection length data.size)

/-- **Writes the encounter section.** -/
def save (encounters : EncounterSection) : Bytes :=
  (encounters.normal.bytes ++ encounters.special.bytes).toArray

/-- One of the two tables. -/
def table (encounters : EncounterSection) : TableId → EncounterTable
  | .normal => encounters.normal
  | .special => encounters.special

/-- The section with another table in one place. -/
def setTable (encounters : EncounterSection) (id : TableId) (table : EncounterTable) :
    EncounterSection :=
  match id with
  | .normal => { encounters with normal := table }
  | .special => { encounters with special := table }

/-- A table is the one that was put there last. -/
theorem table_setTable (encounters : EncounterSection) (id other : TableId)
    (table : EncounterTable) :
    (encounters.setTable id table).table other =
      if other = id then table else encounters.table other := by
  cases id <;> cases other <;> rfl

/-- The section as JSON. -/
def toJson (encounters : EncounterSection) : Json :=
  .object [("tables", .array (TableId.all.map fun id => (encounters.table id).toJson))]

end EncounterSection

end FieldMap
