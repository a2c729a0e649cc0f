import FieldMap.Background.Palette
import FieldMap.Background.Tile

/-!
# Where the tiles are

Behind the palette flags and the mark `BACK` stand the layers of tiles.
The first layer is always there; each of the other three is announced by
a byte that is not zero. A layer opens with its size and the number of its
records, goes on with a block of unknown bytes whose length depends on the
layer, and ends with the records and two more bytes.

A *slot* is the place of a record. Slots are numbered through all layers,
and a tile's number is the number of its slot, so the places that a
layout describes never change, whatever is written into them.

The texture pages start at a fixed distance behind the last layer.
-/

namespace FieldMap

-- the sum of no numbers is the zero of the core library, whatever else is imported
attribute [local instance (high)] Zero.ofOfNat0

/-- **A layer of tiles.** -/
structure TileLayer where
  id : UInt8
  width : Nat
  height : Nat
  /-- The number of its records. -/
  tileCount : Nat
  /-- Where its records start. -/
  recordsOffset : Nat
deriving DecidableEq, Repr

/-- The place of a record. -/
structure TileSlot where
  offset : Nat
  layer : UInt8
deriving DecidableEq, Repr

/-- **The places of all tiles.** -/
structure TileLayout where
  layers : List TileLayer
  /-- Where the last layer ends. -/
  endOffset : Nat
deriving DecidableEq, Repr

namespace TileLayer

/-- The bytes from the size of a layer to its records. -/
def headerLength (id : UInt8) : Nat :=
  6 + (if id = 0 then 2 else if id = 1 then 16 else 10) + 2

/-- Where a layer ends. -/
def endOffset (layer : TileLayer) : Nat :=
  layer.recordsOffset + layer.tileCount * Tile.recordLength + 2

/-- The slots of a layer. -/
def slots (layer : TileLayer) : List TileSlot :=
  (List.range layer.tileCount).map fun i =>
    ⟨layer.recordsOffset + i * Tile.recordLength, layer.id⟩

/-- Reads the layer whose size starts at an offset. -/
def readAt (data : Bytes) (id : UInt8) (offset : Nat) : Except CodecError TileLayer := do
  let width ← data.readWord .layerWidth offset
  let height ← data.readWord .layerHeight (offset + 2)
  let tileCount ← data.readWord .tileCount (offset + 4)
  let recordsOffset := offset + headerLength id
  let _ ← data.slice .tileRecords recordsOffset (tileCount * Tile.recordLength)
  return ⟨id, width, height, tileCount, recordsOffset⟩

/-- Reads the layers with the given ids, of which each is announced by a
byte; also gives the offset at which they end. -/
def readOptional (data : Bytes) : List UInt8 → Nat → Except CodecError (List TileLayer × Nat)
  | [], offset => .ok ([], offset)
  | id :: rest, offset => do
    let present ← data.readByte .layerFlag offset
    if present = 0 then readOptional data rest (offset + 1)
    else do
      let layer ← readAt data id (offset + 1)
      let (layers, endOffset) ← readOptional data rest layer.endOffset
      return (layer :: layers, endOffset)

/-- Reads all layers from an offset on. -/
def readAll (data : Bytes) (offset : Nat) : Except CodecError (List TileLayer × Nat) := do
  let first ← readAt data 0 offset
  let (layers, endOffset) ← readOptional data [1, 2, 3] first.endOffset
  return (first :: layers, endOffset)

/-- A layer as JSON. -/
def toJson (layer : TileLayer) : Json :=
  .object [("layer_id", .nat layer.id.toNat), ("width", .nat layer.width),
    ("height", .nat layer.height), ("tile_count", .nat layer.tileCount)]

end TileLayer

namespace TileLayout

/-- The distance from the end of the layers to the texture pages. -/
def textureGap : Nat := 7

/-- Where the texture pages start. -/
def textureOffset (layout : TileLayout) : Nat := layout.endOffset + textureGap

/-- **All slots**, in the order of their numbers. -/
def slots (layout : TileLayout) : List TileSlot := layout.layers.flatMap TileLayer.slots

/-- The number of slots. -/
def slotCount (layout : TileLayout) : Nat := (layout.layers.map TileLayer.tileCount).sum

/-- The most slots there may be, so that no slot has the number of a
pending tile. -/
def maxSlots : Nat := 0xFFFF

/-- The mark in front of the layers. -/
def marker : List UInt8 := [0x42, 0x41, 0x43, 0x4B]

/-- Where the mark stands. -/
def markerOffset : Nat := Palette.flagsOffset + Palette.maxCount

/-- **Finds the tiles of a background section.** -/
def read (data : Bytes) : Except CodecError TileLayout := do
  let _ ← data.slice .paletteFlags Palette.flagsOffset Palette.maxCount
  let mark ← data.slice .backMarker markerOffset marker.length
  if mark.toList ≠ marker then .error (.missingMarker .back)
  else do
    let (layers, endOffset) ← TileLayer.readAll data (markerOffset + marker.length)
    let layout : TileLayout := ⟨layers, endOffset⟩
    if data.size < endOffset then .error (.truncated .tileLayers endOffset 0 0)
    else if maxSlots < layout.slotCount then
      .error (.wrongSize .tileSlotCount maxSlots layout.slotCount)
    else .ok layout

end TileLayout

end FieldMap
