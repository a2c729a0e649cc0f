import FieldMap.Bytes

/-!
# Texture pages

The texels of the tiles are on pages of 256 by 256. There are 42 places
for pages; a word that is not zero announces a page, and behind it stand
the bytes of a texel, one or two, and the texels row by row.
-/

namespace FieldMap

/-- **A page of texels.** -/
structure TexturePage where
  /-- Bytes of a texel. -/
  depth : Nat
  data : Bytes
deriving DecidableEq

namespace TexturePage

/-- Texels in a row, and rows on a page. -/
def side : Nat := 256

/-- How many places for pages there are. -/
def pageCount : Nat := 42

/-- **The texel in a column and a row**: a number of a palette's color on
a page of single bytes, and a direct color on any other. -/
def texel? (page : TexturePage) (x y : Nat) : Option Nat :=
  if side ≤ x ∨ side ≤ y then none
  else
    let offset := (y * side + x) * page.depth
    if page.depth = 1 then page.data[offset]?.map UInt8.toNat
    else if offset + 2 ≤ page.data.size then some (page.data.wordAt offset).toNat
    else none

/-- Reads a number of places for pages from an offset on. -/
def readPages (data : Bytes) : Nat → Nat → Except CodecError (List (Option TexturePage))
  | 0, _ => .ok []
  | count + 1, offset => do
    let present ← data.readWord .pageFlag offset
    if present = 0 then do
      let pages ← readPages data count (offset + 2)
      return none :: pages
    else do
      let depth ← data.readWord .pageDepth (offset + 4)
      if depth ≠ 1 ∧ depth ≠ 2 then .error (.wrongSize .pageDepth 2 depth)
      else do
        let texels ← data.slice .page (offset + 6) (side * side * depth)
        let pages ← readPages data count (offset + 6 + side * side * depth)
        return some ⟨depth, texels⟩ :: pages

/-- **Reads the pages of a background section**, which start at an
offset. -/
def readAll (data : Bytes) (offset : Nat) : Except CodecError (List (Option TexturePage)) :=
  if data.size < offset then .error (.truncated .texturePages offset 0 0)
  else readPages data pageCount offset

end TexturePage

end FieldMap
