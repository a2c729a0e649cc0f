import FieldMap.Background.Store
import FieldMap.CommandLine.Output
import FieldMap.Encounter
import FieldMap.FieldFile

/-!
# Showing encounters and backgrounds

Short accounts of two sections of a field: the battles of both encounter
tables, and the size and place of what a background is made of. In JSON
the tables are printed as they are stored, and of a background its tiles.
-/

namespace FieldMap.CommandLine

open FieldMap.Text

/-- The line of a battle. -/
def battleLine (encounter : Encounter) (index : Nat) : String :=
  "  " ++ padLeft 2 ' ' (decimal index) ++ ": battle " ++
    padLeft 4 ' ' (decimal encounter.battle.toNat) ++ " chance " ++
    padLeft 2 ' ' (decimal encounter.probability.toNat) ++ "\n"

/-- The lines of an encounter table. -/
def tableLines (name : String) (table : EncounterTable) : String :=
  name ++ ": enabled " ++ (if table.isEnabled then "true" else "false") ++ ", rate " ++
    decimal table.rate.toNat ++ "\n" ++
    String.join (table.battles.zipIdx.map fun (encounter, index) => battleLine encounter index)

/-- **What showing encounters prints.** -/
def showEncounters (json : Bool) (file : FieldFile) : List (Except Failure String) :=
  match EncounterSection.parse file.encounter with
  | .error e => [.error [e.message]]
  | .ok encounters =>
    if json then [.ok (encounters.toJson.pretty ++ "\n")]
    else TableId.all.map fun id => .ok (tableLines id.name (encounters.table id))

/-- The line of a layer. -/
def layerLine (layer : TileLayer) : String :=
  "layer " ++ decimal layer.id.toNat ++ ": " ++ decimal layer.width ++ "x" ++
    decimal layer.height ++ ", " ++ decimal layer.tileCount ++ " tiles\n"

/-- The lines of a background whose texture pages start at an offset. -/
def backgroundLines (background : Background) (textureOffset : Option Nat) : String :=
  "palettes: " ++ decimal background.palettes.length ++ "\n" ++
    String.join (background.layers.map layerLine) ++
    "texture pages: " ++ decimal (background.pages.countP Option.isSome) ++ "\n" ++
    match textureOffset with
    | some offset => "textures at " ++ address offset ++ "\n"
    | none => ""

/-- **What showing a background prints.** -/
def showBackground (json : Bool) (file : FieldFile) : List (Except Failure String) :=
  match (BackgroundStore.ofBytes file.background).decode file.palette with
  | (.error e, _) => [.error [e.message]]
  | (.ok background, store) =>
    if json then [.ok ((Json.array (background.tiles.map Tile.toJson)).pretty ++ "\n")]
    else [.ok (backgroundLines background store.textureOffset?)]

end FieldMap.CommandLine
