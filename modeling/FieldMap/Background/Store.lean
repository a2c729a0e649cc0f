import FieldMap.Background.Layout
import FieldMap.Background.Texture

/-!
# Editing a background

A `BackgroundStore` is the background section together with what has been
found out about it: the layout of its tiles, once some operation has
needed it. Tiles are edited in place. Since no edit moves a record, the
layout that was found stays right, and the section keeps its length.

Every operation gives its result and the store after it. A failing
operation leaves the bytes as they were; it may still have found the
layout.
-/

namespace FieldMap

/-- **Everything a background section holds.** -/
structure Background where
  palettes : List Palette
  layers : List TileLayer
  /-- The tiles in the order of their numbers. -/
  tiles : List Tile
  pages : List (Option TexturePage)

namespace TileSlot

/-- Whether the record in a slot is no tile. -/
def isFree (data : Bytes) (slot : TileSlot) : Bool :=
  data.wordAt (slot.offset + Tile.zOffset) == Tile.pending

end TileSlot

namespace TileLayout

/-- **The tiles** that stand in the slots of a layout. -/
def tiles (layout : TileLayout) (data : Bytes) : List Tile :=
  layout.slots.zipIdx.filterMap fun (slot, id) =>
    if slot.isFree data then none
    else some (Tile.readAt data slot.offset (UInt16.ofNat id) slot.layer)

/-- The number of free slots of a layer. -/
def freeCount (layout : TileLayout) (data : Bytes) (layer : UInt8) : Nat :=
  layout.slots.countP fun slot => slot.layer == layer && slot.isFree data

/-- The slot with a number, if it holds a tile. -/
def takenSlot? (layout : TileLayout) (data : Bytes) (id : UInt16) : Option TileSlot :=
  if id = Tile.pending then none
  else layout.slots[id.toNat]?.filter fun slot => !slot.isFree data

/-- The first free slot of a layer, and its number. -/
def freeSlot? (layout : TileLayout) (data : Bytes) (layer : UInt8) : Option (TileSlot × Nat) :=
  layout.slots.zipIdx.find? fun (slot, _) => slot.layer == layer && slot.isFree data

end TileLayout

/-- **A background section under work.** -/
structure BackgroundStore where
  data : Bytes
  /-- The layout of the tiles, once it has been read. -/
  layout? : Option TileLayout
deriving DecidableEq, Repr

namespace BackgroundStore

/-- A section that nothing is known about yet. -/
def ofBytes (data : Bytes) : BackgroundStore := ⟨data, none⟩

/-- Where the texture pages start, once it is known. -/
def textureOffset? (store : BackgroundStore) : Option Nat :=
  store.layout?.map TileLayout.textureOffset

/-- The layout of the tiles, which is read if it is not known. -/
def layout (store : BackgroundStore) : Except CodecError TileLayout :=
  match store.layout? with
  | some layout => .ok layout
  | none => TileLayout.read store.data

/-- Does something with the layout of the tiles, and remembers it. -/
def withLayout {α : Type} (store : BackgroundStore)
    (act : TileLayout → Except CodecError α × Bytes) : Except CodecError α × BackgroundStore :=
  match store.layout with
  | .error e => (.error e, store)
  | .ok layout =>
    let (result, data) := act layout
    (result, ⟨data, some layout⟩)

/-- **Reads the whole background**, with the colors of its palettes from
their own section. -/
def decode (store : BackgroundStore) (paletteData : Bytes) :
    Except CodecError Background × BackgroundStore :=
  match Palette.readAll store.data paletteData with
  | .error e => (.error e, store)
  | .ok palettes =>
    store.withLayout fun layout =>
      ((TexturePage.readAll store.data layout.textureOffset).map fun pages =>
        ⟨palettes, layout.layers, layout.tiles store.data, pages⟩, store.data)

/-- **The tiles**, in the order of their numbers. -/
def tiles (store : BackgroundStore) : Except CodecError (List Tile) × BackgroundStore :=
  store.withLayout fun layout => (.ok (layout.tiles store.data), store.data)

/-- The number of free slots of a layer. -/
def freeSlots (store : BackgroundStore) (layer : UInt8) : Except CodecError Nat × BackgroundStore :=
  store.withLayout fun layout => (.ok (layout.freeCount store.data layer), store.data)

/-- **Replaces the tile that has the number of the given one.** It must
stay in its layer. -/
def setTile (store : BackgroundStore) (tile : Tile) : Except CodecError Unit × BackgroundStore :=
  store.withLayout fun layout =>
    match layout.takenSlot? store.data tile.id with
    | none => (.error (.noSuchTile tile.id), store.data)
    | some slot =>
      match tile.fault? with
      | some fault => (.error (.invalidTile fault), store.data)
      | none =>
        if slot.layer ≠ tile.layer then (.error (.invalidTile .layerChange), store.data)
        else (.ok (), tile.writeAt store.data slot.offset)

/-- **Stores a pending tile** in the first free slot of its layer, whose
number it gets. The tile comes back as its owner has it afterwards. -/
def allocate (store : BackgroundStore) (tile : Tile) :
    Except CodecError UInt16 × Tile × BackgroundStore :=
  match store.layout with
  | .error e => (.error e, tile, store)
  | .ok layout =>
    let known : BackgroundStore := ⟨store.data, some layout⟩
    if tile.id ≠ Tile.pending then (.error (.invalidTile .alreadyAllocated), tile, known)
    else match tile.fault? with
      | some fault => (.error (.invalidTile fault), tile, known)
      | none =>
        match layout.freeSlot? store.data tile.layer with
        | none => (.error (.noFreeSlot tile.layer), tile, known)
        | some (slot, index) =>
          let stored := { tile with id := UInt16.ofNat index }
          (.ok stored.id, stored, ⟨stored.writeAt store.data slot.offset, some layout⟩)

/-- Stores a pending tile and gives its number. -/
def addTile (store : BackgroundStore) (tile : Tile) : Except CodecError UInt16 × BackgroundStore :=
  let (result, _, after) := store.allocate tile
  (result, after)

end BackgroundStore

end FieldMap
