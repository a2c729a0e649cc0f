import FieldMap.Text.Number

/-!
# What can be wrong with data

Every reader of this library fails with a `CodecError`, a value that says
what is wrong and where. Nearly all of them are of one kind: some *item*
of the format needs more bytes than there are. The wording is in one
place, `CodecError.message`; everything else compares causes, never text.
-/

namespace FieldMap

/-- **The items of the formats** that a reader can find cut short or of
the wrong size. -/
inductive Item where
  | operand | instructionId | specialSubId | specialPayload
  | kawaiLength | kawaiSubId | kawaiPayload | kawaiInstruction
  | extraLength | rawPayload | instruction | label
  | compressedSize
  | fieldHeader | sectionCount | fieldSectionCount | sectionPosition | sectionSize | sectionData
  | archiveCreator | archiveFileCount | archiveContents | entrySize | entryData
  | scriptHeader | version | entityCount | modelCount | textOffset | soundCount | scale
  | creator | fieldName | entityName | soundOffset | scriptPosition | textStart
  | scriptIndex | script | textCount | textPosition | text
  | encounterSection
  | paletteFlags | paletteSize | paletteWidth | paletteCount | paletteColors
  | backMarker | layerFlag | layerWidth | layerHeight | tileCount | tileRecords | tileLayers
  | tileSlotCount
  | texturePages | pageFlag | pageDepth | page
  | encodedScript
deriving DecidableEq, Repr

namespace Item

/-- The name of an item in messages. -/
def name : Item → String
  | operand => "opcode parameter"
  | instructionId => "opcode id"
  | specialSubId => "SPECIAL sub-opcode"
  | specialPayload => "SPECIAL parameters"
  | kawaiLength => "KAWAI length"
  | kawaiSubId => "KAWAI sub-opcode"
  | kawaiPayload => "KAWAI parameters"
  | kawaiInstruction => "KAWAI opcode"
  | extraLength => "opcode 0x1C size"
  | rawPayload => "opcode parameters"
  | instruction => "opcode"
  | label => "label"
  | compressedSize => "LZS size header"
  | fieldHeader => "field header"
  | sectionCount => "section count"
  | fieldSectionCount => "field section count"
  | sectionPosition => "section position"
  | sectionSize => "section size"
  | sectionData => "section data"
  | archiveCreator => "LGP creator"
  | archiveFileCount => "LGP file count"
  | archiveContents => "LGP table of contents"
  | entrySize => "LGP entry size"
  | entryData => "LGP entry data"
  | scriptHeader => "section 1 header"
  | version => "version"
  | entityCount => "entity count"
  | modelCount => "model count"
  | textOffset => "text offset"
  | soundCount => "AKAO count"
  | scale => "scale"
  | creator => "creator"
  | fieldName => "field name"
  | entityName => "entity name"
  | soundOffset => "AKAO offset"
  | scriptPosition => "script position"
  | textStart => "section 1 text offset"
  | scriptIndex => "script index"
  | script => "script"
  | textCount => "text count"
  | textPosition => "text position"
  | text => "text"
  | encounterSection => "encounter section"
  | paletteFlags => "palette flags"
  | paletteSize => "palette size"
  | paletteWidth => "colors per palette"
  | paletteCount => "palette count"
  | paletteColors => "palette colors"
  | backMarker => "BACK marker"
  | layerFlag => "layer flag"
  | layerWidth => "layer width"
  | layerHeight => "layer height"
  | tileCount => "tile count"
  | tileRecords => "tile records"
  | tileLayers => "tile layers"
  | tileSlotCount => "tile slot count"
  | texturePages => "texture pages"
  | pageFlag => "texture page flag"
  | pageDepth => "texture page depth"
  | page => "texture page"
  | encodedScript => "re-encoded script"

end Item

/-- Why a tile cannot be stored. -/
inductive TileFault where
  | layerOutOfRange
  | reservedZ
  | badDepth
  | blendOutOfRange
  | layerChange
  | alreadyAllocated
deriving DecidableEq, Repr

namespace TileFault

/-- The wording of a tile's fault. -/
def message : TileFault → String
  | layerOutOfRange => "layer id out of range"
  | reservedZ => "z id 0xFFFF marks a free slot"
  | badDepth => "depth must be 1 or 2"
  | blendOutOfRange => "blend type out of range"
  | layerChange => "a tile cannot move to another layer"
  | alreadyAllocated => "tile is already allocated"

end TileFault

/-- A fixed byte sequence that has to stand at its place. -/
inductive Marker where
  | label
  | back
deriving DecidableEq, Repr

namespace Marker

/-- The name of a marker in messages. -/
def name : Marker → String
  | label => "label"
  | back => "BACK"

end Marker

/-- Why compressed data cannot be unpacked. -/
inductive CompressionFault where
  | oversizedHeader
  | emptyStream
deriving DecidableEq, Repr

namespace CompressionFault

/-- The wording of a fault in compressed data. -/
def message : CompressionFault → String
  | oversizedHeader => "size header is larger than the stream"
  | emptyStream => "empty stream"

end CompressionFault

/-- **The causes for which data cannot be read or written.** -/
inductive CodecError where
  /-- An item has a size other than the one it must have. -/
  | wrongSize (item : Item) (expected actual : Nat)
  /-- An item needs more bytes than are left at its offset. -/
  | truncated (item : Item) (offset needed available : Nat)
  /-- No instruction has this id. -/
  | unknownId (id : Nat)
  /-- Every tile slot of the layer is taken. -/
  | noFreeSlot (layer : UInt8)
  /-- An operand does not lie in one byte, or not on a byte boundary. -/
  | misaligned (bitOffset width : Nat)
  /-- There is no tile with this id. -/
  | noSuchTile (id : UInt16)
  | invalidTile (fault : TileFault)
  /-- A jump leads to a byte at which no instruction starts. -/
  | jumpOffBoundary (index : Nat) (target : Int)
  /-- A label number stands at two places. -/
  | labelRedefined (index number : Nat)
  /-- The distance to a label does not fit the jump's operand. -/
  | jumpOutOfRange (index : Nat) (distance : Int)
  | valueOutOfRange (value min max : Int)
  | missingMarker (marker : Marker)
  | compression (fault : CompressionFault)
deriving DecidableEq, Repr

namespace CodecError

open FieldMap.Text

/-- **The wording of an error.** -/
def message : CodecError → String
  | wrongSize item expected actual =>
    item.name ++ " has " ++ decimal actual ++ " bytes, expected " ++ decimal expected
  | truncated item offset needed available =>
    item.name ++ " needs " ++ decimal needed ++ " bytes at offset " ++ decimal offset ++ ", only " ++
      decimal available ++ " available"
  | unknownId id => "unknown opcode " ++ hexId 2 id
  | noFreeSlot layer => "no free tile slot left in layer " ++ decimal layer.toNat
  | misaligned bitOffset width =>
    decimal width ++ "-bit field at bit offset " ++ decimal bitOffset ++ " is not aligned"
  | noSuchTile id => "tile " ++ hexId 4 id.toNat ++ " not found"
  | invalidTile fault => "invalid tile: " ++ fault.message
  | jumpOffBoundary index target =>
    "jump at opcode " ++ decimal index ++ " targets byte " ++ signedDecimal target ++
      ", which is not an opcode boundary"
  | labelRedefined index number =>
    "label " ++ decimal number ++ " at opcode " ++ decimal index ++ " is already defined"
  | jumpOutOfRange index distance =>
    "jump at opcode " ++ decimal index ++ " needs offset " ++ signedDecimal distance ++
      ", which does not fit its field"
  | valueOutOfRange value min max =>
    "value " ++ signedDecimal value ++ " is out of range " ++ signedDecimal min ++ "..=" ++
      signedDecimal max
  | missingMarker marker => "missing '" ++ marker.name ++ "' marker"
  | compression fault => "LZS: " ++ fault.message

/-- The error as seen from `base` bytes earlier: only the offset of a read
that found too few bytes moves. -/
def shift (base : Nat) : CodecError → CodecError
  | truncated item offset needed available => truncated item (base + offset) needed available
  | e => e

end CodecError

end FieldMap
