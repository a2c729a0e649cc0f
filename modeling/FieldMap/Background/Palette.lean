import FieldMap.Bytes

/-!
# Colors and palettes

A stored color has five bits for each channel. In a palette red is in the
low bits and the highest bit marks the color as semi-transparent; in a
page of direct colors red is in the high bits. Either way the word zero,
black without any mark, is fully transparent.

The colors of the palettes are in a section of their own, those of one
palette behind those of the other. The background section adds one flag
byte to each palette. The colors are cut into chunks, one for a palette,
and each chunk is put together with the flag at its position.
-/

namespace FieldMap

/-- **A color** with eight bits for each channel. -/
structure Color where
  red : UInt8
  green : UInt8
  blue : UInt8
  alpha : UInt8
deriving DecidableEq, Repr

namespace Color

/-- A channel of eight bits whose high bits are five given ones, which are
repeated in the low bits. -/
def widen (bits : UInt16) : UInt8 :=
  let low : UInt8 := (bits &&& 31).toUInt8
  (low <<< 3) ||| (low >>> 2)

/-- Only the word zero is transparent. -/
def alphaOf (raw : UInt16) : UInt8 := if raw = 0 then 0 else 0xFF

/-- The color that a palette's word stands for. -/
def ofPalette (raw : UInt16) : Color :=
  ⟨widen raw, widen (raw >>> 5), widen (raw >>> 10), alphaOf raw⟩

/-- The color that a word of a direct color page stands for. -/
def ofDirect (raw : UInt16) : Color :=
  ⟨widen (raw >>> 11), widen (raw >>> 6), widen raw, alphaOf raw⟩

/-- Whether a palette's word is marked as semi-transparent. -/
def isSemiTransparent (raw : UInt16) : Bool := raw &&& 0x8000 != 0

end Color

/-- **A palette**: its stored colors and its flag. -/
structure Palette where
  colors : List UInt16
  flag : UInt8
deriving DecidableEq, Repr

namespace Palette

/-- Where the flags stand in the background section. -/
def flagsOffset : Nat := 12

/-- How many palettes there may be, and how many flags there are. -/
def maxCount : Nat := 24

/-- Where the colors stand in the palette section. -/
def colorsOffset : Nat := 12

/-- A color of a palette. -/
def color? (palette : Palette) (index : Nat) : Option Color :=
  palette.colors[index]?.map Color.ofPalette

/-- The first pieces of a list, of one length each. -/
def pieces {α : Type} (size : Nat) : Nat → List α → List (List α)
  | 0, _ => []
  | count + 1, items => items.take size :: pieces size count (items.drop size)

/-- **A list cut into chunks** of one length, as many as fit. What is left
over at the end is dropped. -/
def chunksExact {α : Type} (size : Nat) (items : List α) : List (List α) :=
  pieces size (items.length / size) items

/-- A palette from the bytes of its colors, two for each. -/
def ofChunk (chunk : List UInt8) (flag : UInt8) : Palette where
  colors := (chunksExact 2 chunk).map fun word => UInt16.ofNat (ofLittleEndian word)
  flag := flag

/-- **A number of palettes** from the bytes of all colors and the flags. A
chunk holds one byte at least. -/
def ofChunks (width count : Nat) (colors flags : List UInt8) : List Palette :=
  (((chunksExact (max (width * 2) 1) colors).take count).zip flags).map fun (chunk, flag) =>
    ofChunk chunk flag

/-- **Reads the palettes**: the flags from the background section, the
colors from the palette section. -/
def readAll (background paletteData : Bytes) : Except CodecError (List Palette) := do
  let _ ← paletteData.readLong .paletteSize 0
  let width ← paletteData.readWord .paletteWidth 8
  let count ← paletteData.readWord .paletteCount 10
  if maxCount < count then .error (.wrongSize .paletteCount maxCount count)
  else do
    let flags ← background.slice .paletteFlags flagsOffset count
    let colors ← paletteData.slice .paletteColors colorsOffset (count * width * 2)
    return ofChunks width count colors.toList flags.toList

end Palette

end FieldMap
