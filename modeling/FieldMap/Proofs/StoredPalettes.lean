import FieldMap.Proofs.PaletteChunks

/-!
# Palettes are read back

`StoredPalettes` describes a palette section from the side of whoever writes it: eight
bytes of no interest here, the number of colors in a palette, the number of palettes,
and the colors of one palette after the other. Nothing in it is an offset.

A reader finds the palettes at their places (`readAll_eq_ok`). Here it gives back the
palettes that were described, each with its flag, which is found in another section
(`readAll_eq`). What has to be shown is that the palettes and their flags are paired in
order, and that no palette is lost. That would happen to palettes without colors, since
these take no room.
-/

namespace FieldMap

/-- **A palette section** as it is stored. -/
structure StoredPalettes where
  opening : Vector UInt8 8
  /-- The number of colors in each palette. -/
  width : UInt16
  palettes : List (Vector UInt16 width.toNat)
  tail : List UInt8
  length_le : palettes.length ≤ 24
  width_pos : palettes ≠ [] → 0 < width

namespace StoredPalettes

/-- The words of a palette. -/
def colorBytes {width : Nat} (colors : Vector UInt16 width) : List UInt8 :=
  colors.toList.flatMap fun color => toLittleEndian 2 color.toNat

/-- **The bytes of a palette section.** -/
def bytes (stored : StoredPalettes) : List UInt8 :=
  stored.opening.toList ++ (toLittleEndian 2 stored.width.toNat ++
    (toLittleEndian 2 stored.palettes.length ++
      (stored.palettes.flatMap colorBytes ++ stored.tail)))

/-- The palettes of a section, with their flags. -/
def withFlags (stored : StoredPalettes) (flags : List UInt8) : List Palette :=
  List.zipWith (fun colors flag => ⟨colors.toList, flag⟩) stored.palettes flags

theorem length_colorBytes {width : Nat} (colors : Vector UInt16 width) :
    (colorBytes colors).length = width * 2 := by
  unfold colorBytes
  rw [Bytes.length_flatMap_of_forall fun _ _ => length_toLittleEndian 2 _, Vector.length_toList]

section Places

variable {data : Bytes} {stored : StoredPalettes} (h : data.HoldsAt 0 stored.bytes)

include h

theorem holdsAt_width : data.HoldsAt 8 (toLittleEndian 2 stored.width.toNat) :=
  (h.behind Vector.length_toList).left

theorem holdsAt_count : data.HoldsAt 10 (toLittleEndian 2 stored.palettes.length) := by
  have hwidth := h.behind Vector.length_toList
  exact (hwidth.behind (length_toLittleEndian ..)).left

theorem holdsAt_colors : data.HoldsAt 12 (stored.palettes.flatMap colorBytes) := by
  have hwidth := h.behind Vector.length_toList
  have hcount := hwidth.behind (length_toLittleEndian ..)
  exact (hcount.behind (length_toLittleEndian ..)).left

end Places

end StoredPalettes

namespace Palette

variable {data paletteData : Bytes} {flags : Vector UInt8 24} {stored : StoredPalettes}

/-- **A palette is read** from where its colors and its flag stand. -/
theorem readAt_of_holdsAt {width index : Nat} {colors : Vector UInt16 width} {flag : UInt8}
    (hcolors : paletteData.HoldsAt (12 + index * (width * 2)) (StoredPalettes.colorBytes colors))
    (hflag : data.byteAt (12 + index) = flag) :
    readAt data paletteData width index = ⟨colors.toList, flag⟩ := by
  unfold readAt
  rw [Palette.mk.injEq]
  refine ⟨List.ext_getElem ?_ fun i hi hi' => ?_, hflag⟩
  · rw [List.length_map, List.length_range, Vector.length_toList]
  · have hword := hcolors.entry (fun _ _ => length_toLittleEndian ..)
      (List.getElem?_eq_getElem hi')
    rw [List.getElem_map, List.getElem_range, ← hword.wordAt]
    refine congrArg paletteData.wordAt ?_
    show 12 + 2 * (index * width + i) = _
    rw [← Nat.mul_assoc]
    omega

/-- Each palette is read, in order. -/
theorem map_readAt (hflags : data.HoldsAt 12 flags.toList)
    (hstored : paletteData.HoldsAt 0 stored.bytes) :
    (List.range stored.palettes.length).map (readAt data paletteData stored.width.toNat)
      = stored.withFlags flags.toList := by
  have hlength := stored.length_le
  unfold StoredPalettes.withFlags
  refine List.ext_getElem ?_ fun i hi hi' => ?_
  · rw [List.length_map, List.length_range, List.length_zipWith, Vector.length_toList]
    omega
  · rw [List.length_zipWith, Vector.length_toList] at hi'
    have hcolors : i < stored.palettes.length := by omega
    have hflag : i < flags.toList.length := by
      rw [Vector.length_toList]
      omega
    rw [List.getElem_map, List.getElem_range, List.getElem_zipWith]
    exact readAt_of_holdsAt
      ((StoredPalettes.holdsAt_colors hstored).entry
        (fun colors _ => StoredPalettes.length_colorBytes colors) (List.getElem?_eq_getElem hcolors))
      (hflags.byteAt (List.getElem?_eq_getElem hflag))

/-- **The palettes of a section are read back.** -/
theorem readAll_eq (hflags : data.HoldsAt 12 flags.toList)
    (hstored : paletteData.HoldsAt 0 stored.bytes) :
    readAll data paletteData = .ok (stored.withFlags flags.toList) := by
  have hlength := stored.length_le
  have hwidth : (paletteData.wordAt 8).toNat = stored.width.toNat :=
    congrArg UInt16.toNat (StoredPalettes.holdsAt_width hstored).wordAt
  have hcount : paletteData.readWord .paletteCount 10 = .ok stored.palettes.length :=
    (StoredPalettes.holdsAt_count hstored).readNumber
      (Nat.lt_of_le_of_lt hlength (by decide)) _
  have hroom := (StoredPalettes.holdsAt_colors hstored).le_size
  rw [Bytes.length_flatMap_of_forall fun colors _ => StoredPalettes.length_colorBytes colors,
    ← Nat.mul_assoc] at hroom
  have hflagsRoom := hflags.le_size
  rw [Vector.length_toList] at hflagsRoom
  rw [readAll_eq_ok, hwidth, (Bytes.readWord_eq_ok.mp hcount).2, map_readAt hflags hstored]
  refine ⟨⟨hlength, by omega, hroom⟩, ?_⟩
  split_ifs with hwidth
  · -- palettes without colors are none at all
    have hnone : stored.palettes = [] := by
      by_contra hsome
      have hpos := UInt16.lt_iff_toNat_lt.mp (stored.width_pos hsome)
      exact absurd hwidth (Nat.ne_of_gt hpos)
    unfold StoredPalettes.withFlags
    rw [hnone]
    rfl
  · rfl

end Palette

end FieldMap
