import FieldMap.Bytes
import FieldMap.Json.Value

/-!
# Tiles

A background is made of tiles, and each tile is a record of 52 bytes. Not
all of these bytes are understood: `Tile.fields` lists the ones that a
tile determines, with their offsets in the record, and writing a tile
changes those and no others.

The record does not hold the number of the tile, which is its position
among all records, nor its layer, which is that of the records around it.
A record whose sorting number is `0xFFFF` is no tile but free.
-/

namespace FieldMap

/-- **A tile of a background.** -/
structure Tile where
  /-- The number of its record, or `Tile.pending`. -/
  id : UInt16
  layer : UInt8
  dstX : Int16
  dstY : Int16
  srcX : UInt8
  srcY : UInt8
  srcX2 : UInt8
  srcY2 : UInt8
  width : UInt16
  height : UInt16
  palette : UInt8
  /-- The sorting number, which is not `0xFFFF` in a tile. -/
  z : UInt16
  param : UInt8
  state : UInt8
  blending : Bool
  blendType : UInt8
  texture : UInt8
  texture2 : UInt8
  /-- Bytes of a texel: one for palette colors, two for direct ones. -/
  depth : UInt8
deriving DecidableEq, Repr

namespace Tile

/-- The number of a tile that has no record yet, and the sorting number of
a free record. -/
def pending : UInt16 := 0xFFFF

/-- The length of a record. -/
def recordLength : Nat := 52

/-- Where a record holds the sorting number. -/
def zOffset : Nat := 22

/-- How many layers there are. -/
def layerCount : UInt8 := 4

/-- A plain tile that has no record yet. -/
def blank (layer : UInt8) : Tile where
  id := pending
  layer := layer
  dstX := 0
  dstY := 0
  srcX := 0
  srcY := 0
  srcX2 := 0
  srcY2 := 0
  width := 16
  height := 16
  palette := 0
  z := 0
  param := 0
  state := 0
  blending := false
  blendType := 0
  texture := 0
  texture2 := 0
  depth := 1

/-- **Reads the tile** whose record starts at an offset. -/
def readAt (data : Bytes) (offset : Nat) (id : UInt16) (layer : UInt8) : Tile where
  id := id
  layer := layer
  dstX := (data.wordAt offset).toInt16
  dstY := (data.wordAt (offset + 2)).toInt16
  srcX := data.byteAt (offset + 8)
  srcY := data.byteAt (offset + 10)
  srcX2 := data.byteAt (offset + 12)
  srcY2 := data.byteAt (offset + 14)
  width := data.wordAt (offset + 16)
  height := data.wordAt (offset + 18)
  palette := data.byteAt (offset + 20)
  z := data.wordAt (offset + zOffset)
  param := data.byteAt (offset + 24)
  state := data.byteAt (offset + 25)
  blending := data.byteAt (offset + 26) != 0
  blendType := data.byteAt (offset + 28)
  texture := data.byteAt (offset + 30)
  texture2 := data.byteAt (offset + 32)
  depth := data.byteAt (offset + 34)

/-- A word at an offset of a record, low byte first. -/
def word (offset : Nat) (value : UInt16) : List (Nat × UInt8) :=
  [(offset, value.toUInt8), (offset + 1, (value >>> 8).toUInt8)]

/-- **The bytes of a record that a tile determines**, with their
offsets. -/
def fields (tile : Tile) : List (Nat × UInt8) :=
  word 0 tile.dstX.toUInt16 ++ word 2 tile.dstY.toUInt16 ++
    [(8, tile.srcX), (10, tile.srcY), (12, tile.srcX2), (14, tile.srcY2)] ++
    word 16 tile.width ++ word 18 tile.height ++ [(20, tile.palette)] ++ word zOffset tile.z ++
    [(24, tile.param), (25, tile.state), (26, if tile.blending then 1 else 0),
      (28, tile.blendType), (30, tile.texture), (32, tile.texture2), (34, tile.depth)]

/-- Data with single bytes replaced, which are given by their offsets from
a base. -/
def overwrite (data : Bytes) (base : Nat) (bytes : List (Nat × UInt8)) : Bytes :=
  bytes.foldl (fun data (offset, b) => data.setIfInBounds (base + offset) b) data

/-- **Writes a tile** into the record that starts at an offset. -/
def writeAt (tile : Tile) (data : Bytes) (offset : Nat) : Bytes :=
  overwrite data offset tile.fields

/-- The first thing that keeps a tile from being stored. -/
def fault? (tile : Tile) : Option TileFault :=
  if layerCount ≤ tile.layer then some .layerOutOfRange
  else if tile.z = pending then some .reservedZ
  else if tile.depth ≠ 1 ∧ tile.depth ≠ 2 then some .badDepth
  else if 3 < tile.blendType then some .blendOutOfRange
  else none

/-- A tile as JSON. -/
def toJson (tile : Tile) : Json :=
  .object [("tile_id", .nat tile.id.toNat), ("layer_id", .nat tile.layer.toNat),
    ("dst_x", .number tile.dstX.toInt), ("dst_y", .number tile.dstY.toInt),
    ("src_x", .nat tile.srcX.toNat), ("src_y", .nat tile.srcY.toNat),
    ("src_x2", .nat tile.srcX2.toNat), ("src_y2", .nat tile.srcY2.toNat),
    ("width", .nat tile.width.toNat), ("height", .nat tile.height.toNat),
    ("palette_id", .nat tile.palette.toNat), ("z", .nat tile.z.toNat),
    ("param", .nat tile.param.toNat), ("state", .nat tile.state.toNat),
    ("blending", .bool tile.blending), ("type_trans", .nat tile.blendType.toNat),
    ("texture_id", .nat tile.texture.toNat), ("texture_id2", .nat tile.texture2.toNat),
    ("depth", .nat tile.depth.toNat)]

end Tile

end FieldMap
