import FieldMap.Background.Store
import FieldMap.Journal.Note

/-!
# Notes on backgrounds

Finding the layout of the tiles is noted when it succeeds, and storing a
new tile. Reading a whole background notes the part at which it fails.
-/

namespace FieldMap.BackgroundStore

/-- What finding a layout leaves. -/
def layoutNote (layout : TileLayout) : Note :=
  .tileLayoutRead layout.slotCount layout.layers.length layout.endOffset

/-- What an operation leaves that needs the layout of the tiles. -/
def layoutNotes (store : BackgroundStore) : List Note :=
  match store.layout?, store.layout with
  | none, .ok layout => [layoutNote layout]
  | _, _ => []

/-- What reading the whole background leaves. -/
def decodeNotes (store : BackgroundStore) (paletteData : Bytes) : List Note :=
  match Palette.readAll store.data paletteData with
  | .error e => [.palettesFailed e]
  | .ok _ =>
    match store.layout with
    | .error e => [.tilesFailed e]
    | .ok layout =>
      store.layoutNotes ++
        match TexturePage.readAll store.data layout.textureOffset with
        | .error e => [.texturesFailed layout.textureOffset e]
        | .ok _ => []

/-- What storing a pending tile leaves. -/
def addTileNotes (store : BackgroundStore) (tile : Tile) : List Note :=
  store.layoutNotes ++
    match (store.addTile tile).1 with
    | .error _ => []
    | .ok id => [.tileAllocated id.toNat tile.layer]

end FieldMap.BackgroundStore
