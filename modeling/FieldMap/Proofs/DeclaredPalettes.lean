import FieldMap.Proofs.StoredBackground

/-!
# Which palettes come back

A palette section declares how many palettes it has and how many colors there are in each,
and the colors of one palette follow those of the other. The background section adds a flag
to each palette. Here nothing is known of how the two sections were made: whatever they
hold, the palette with a number has the words that stand at the multiple of its room, and
the flag with the same number (`Palette.isDeclaredAt_readAt`).

As many palettes as are declared come back, provided that they have colors at all
(`palettes_declared`). Palettes without colors take no room, so the room does not tell how
many of them there are. They are lost, although their number is declared and their flags are
looked for (`palettes_dropped`).
-/

/-- The entries of a list that is made from its numbers. -/
theorem List.getElem?_map_range_eq_some {α : Type} {f : Nat → α} {count i : Nat} {a : α} :
    ((List.range count).map f)[i]? = some a ↔ i < count ∧ f i = a := by
  rw [List.getElem?_eq_some_iff]
  simp only [List.length_map, List.length_range, List.getElem_map, List.getElem_range, exists_prop]

namespace FieldMap

/-- **A palette that two sections declare** under a number: each of its colors and its flag
stand at their places. -/
structure Palette.IsDeclaredAt (background paletteData : Bytes) (width index : Nat)
    (palette : Palette) : Prop where
  length_colors : palette.colors.length = width
  colors : ∀ j color, palette.colors[j]? = some color →
    paletteData.HoldsAt (12 + 2 * (index * width + j)) (toLittleEndian 2 color.toNat)
  flag : background.HoldsAt (12 + index) [palette.flag]

/-- **A palette is read** as it is declared, if there is room for all palettes. -/
theorem Palette.isDeclaredAt_readAt {background paletteData : Bytes} {width count index : Nat}
    (hindex : index < count) (hflags : 12 + count ≤ background.size)
    (hcolors : 12 + count * width * 2 ≤ paletteData.size) :
    (readAt background paletteData width index).IsDeclaredAt background paletteData width index := by
  have hroom : (index + 1) * width ≤ count * width := Nat.mul_le_mul_right _ hindex
  rw [Nat.succ_mul] at hroom
  refine ⟨(List.length_map _).trans List.length_range, fun j color hcolor => ?_, ?_⟩
  · obtain ⟨hj, rfl⟩ := List.getElem?_map_range_eq_some.mp hcolor
    exact .of_wordAt (show 12 + 2 * (index * width + j) + 2 ≤ paletteData.size by omega)
  · exact .of_byteAt (show 12 + index + 1 ≤ background.size by omega)

namespace BackgroundStore

/-- **Every declared palette is returned, if it has colors.** Say that the palette section
declares `c` palettes of `k` colors each, and that the background can be read. If there are
colors, then there are `c` palettes, and each of them has the `k` colors and the flag that
the two sections declare under its number. But there is no palette at all if there are no
colors, whatever `c` is. -/
theorem palettes_declared {store : BackgroundStore} {paletteData : Bytes} {background : Background}
    {c k : Nat} (h : (store.decode paletteData).1 = .ok background)
    (hcount : (paletteData.wordAt 10).toNat = c) (hwidth : (paletteData.wordAt 8).toNat = k) :
    (0 < k → background.palettes.length = c
        ∧ ∀ i (palette : Palette), background.palettes[i]? = some palette →
          palette.IsDeclaredAt store.data paletteData k i)
      ∧ (k = 0 → background.palettes = []) := by
  subst hcount hwidth
  obtain ⟨⟨-, hflags, hcolors⟩, hpalettes⟩ := Palette.readAll_eq_ok.mp (decode_eq_ok.mp h).1
  refine ⟨fun hpos => ?_, fun hnone => ?_⟩
  · rw [if_neg (Nat.ne_of_gt hpos)] at hpalettes
    rw [← hpalettes]
    refine ⟨(List.length_map _).trans List.length_range, fun i palette hpalette => ?_⟩
    obtain ⟨hi, rfl⟩ := List.getElem?_map_range_eq_some.mp hpalette
    exact Palette.isDeclaredAt_readAt hi hflags hcolors
  · rw [if_pos hnone] at hpalettes
    exact hpalettes.symm

/-- A section without tiles and without pages. Its flags are the even numbers. -/
def bareSection : StoredBackground where
  opening := Vector.replicate 12 0
  flags := Vector.ofFn fun i => UInt8.ofNat (2 * i)
  layers := {
    first := ⟨320, 240, Vector.replicate _ 0, [], Vector.replicate 2 0, by decide⟩
    second? := none
    third? := none
    fourth? := none }
  gap := Vector.replicate 7 0
  pages := Vector.replicate 42 none
  tail := []
  length_records_le := by decide

/-- The second palette has the flag that is second, and its last color ends the section. -/
theorem palettes_declared_two :
    ∃ background, ((ofBytes bareSection.bytes.toArray).decode twoPalettes.bytes.toArray).1
        = .ok background
      ∧ background.palettes = [⟨[0x7FFF, 0], 0⟩, ⟨[31, 992], 2⟩]
      ∧ Bytes.HoldsAt twoPalettes.bytes.toArray 18 [0xE0, 0x03]
      ∧ Bytes.HoldsAt bareSection.bytes.toArray 13 [2] := by
  have hread : ((ofBytes bareSection.bytes.toArray).decode twoPalettes.bytes.toArray).1.map
      Background.palettes = .ok [⟨[0x7FFF, 0], 0⟩, ⟨[31, 992], 2⟩] := by decide +kernel
  obtain ⟨background, hdecode, hpalettes⟩ := Except.map_eq_ok.mp hread
  obtain ⟨-, hdeclared⟩ := (palettes_declared hdecode (by decide +kernel : _ = 2)
    (by decide +kernel : _ = 2)).1 (by decide)
  have hsecond := hdeclared 1 ⟨[31, 992], 2⟩ (by rw [hpalettes]; rfl)
  exact ⟨background, hdecode, hpalettes, hsecond.colors 1 992 rfl, hsecond.flag⟩

/-- A palette section that declares three palettes without colors. -/
def colorless : Bytes := #[0, 0, 0, 0, 0, 0, 0, 0, 0, 0, 3, 0]

/-- **Palettes without colors are dropped**: three are declared and none is returned. -/
theorem palettes_dropped :
    (colorless.wordAt 8).toNat = 0 ∧ (colorless.wordAt 10).toNat = 3
      ∧ ((ofBytes bareSection.bytes.toArray).decode colorless).1.map Background.palettes = .ok []
      ∧ ¬∀ store paletteData background, (decode store paletteData).1 = .ok background →
        background.palettes.length = (paletteData.wordAt 10).toNat := by
  have hread : ((ofBytes bareSection.bytes.toArray).decode colorless).1.map Background.palettes
      = .ok [] := by decide +kernel
  refine ⟨by decide +kernel, by decide +kernel, hread, fun hall => ?_⟩
  obtain ⟨background, hdecode, hpalettes⟩ := Except.map_eq_ok.mp hread
  have hlength := hall _ _ _ hdecode
  rw [hpalettes] at hlength
  exact absurd hlength (by decide +kernel)

end BackgroundStore

end FieldMap
