import FieldMap.Background.Store
import FieldMap.Proofs.StoredLayers
import FieldMap.Proofs.StoredPalettes

/-!
# Backgrounds are read back

`StoredBackground` describes a background section from the side of whoever writes it:
the flags of the palettes, the mark, the layers, and 42 places for texture pages, with
bytes of no interest in front of, between and behind them. It says nothing about
offsets, which a reader can only find by walking through the layers.

The reader goes through three stages. The palettes stand in a section of their own
and take their flags from this one. The layers are found behind the mark. The pages
are found behind the layers, at a distance that is the same in all sections. Each
stage has its lemma, in terms of what stands where (`Palette.readAll_eq`,
`TileLayout.read_of_holdsAt`, `TexturePage.readAll_of_holdsAt`). What is read of any
section at all is put together from the stages (`decode_eq_ok`), and the background that
is read of this one is the one that was described (`decode_stored`).
-/

namespace FieldMap

/-! ## How pages are stored -/

/-- **A texture page** as it is stored. -/
structure StoredPage where
  flag : UInt16
  flag_ne_zero : flag ≠ 0
  unknown : Vector UInt8 2
  page : TexturePage
  depth_eq : page.depth = 1 ∨ page.depth = 2
  size_eq : page.data.size = 256 * 256 * page.depth

namespace StoredPage

/-- The bytes of a place for a page. -/
def bytes : Option StoredPage → List UInt8
  | none => toLittleEndian 2 0
  | some stored => toLittleEndian 2 stored.flag.toNat ++ (stored.unknown.toList ++
      (toLittleEndian 2 stored.page.depth ++ stored.page.data.toList))

variable {data : Bytes} {offset : Nat} {stored : StoredPage}

theorem length_bytes (stored : StoredPage) :
    (bytes (some stored)).length = 6 + 256 * 256 * stored.page.depth := by
  unfold bytes
  simp only [List.length_append, length_toLittleEndian, Vector.length_toList, Array.length_toList,
    stored.size_eq]
  omega

theorem not_unknown_depth (stored : StoredPage) :
    ¬(stored.page.depth ≠ 1 ∧ stored.page.depth ≠ 2) := by
  have hdepth := stored.depth_eq
  omega

section Reads

variable (h : data.HoldsAt offset (bytes (some stored)))

include h

/-- The word in front of a page announces it. -/
theorem exists_readWord_flag : ∃ flag, data.readWord .pageFlag offset = .ok flag ∧ flag ≠ 0 :=
  ⟨stored.flag.toNat, h.left.readNumber stored.flag.toNat_lt _, fun hzero =>
    stored.flag_ne_zero (UInt16.toNat_inj.mp hzero)⟩

theorem readWord_depth : data.readWord .pageDepth (offset + 4) = .ok stored.page.depth := by
  have hunknown := h.behind (length_toLittleEndian ..)
  have hdepth := (hunknown.behind Vector.length_toList).left
  have hsmall : stored.page.depth ≤ 2 := by
    rcases stored.depth_eq with heq | heq <;> rw [heq]
    decide
  exact hdepth.readNumber (Nat.lt_of_le_of_lt hsmall (by decide)) _

theorem slice_texels :
    data.slice .page (offset + 6) (256 * 256 * stored.page.depth) = .ok stored.page.data := by
  have hunknown := h.behind (length_toLittleEndian ..)
  have hdepth := hunknown.behind Vector.length_toList
  have htexels := hdepth.behind (length_toLittleEndian ..)
  exact htexels.slice (Array.length_toList.trans stored.size_eq) _

end Reads

end StoredPage

namespace TexturePage

variable {data : Bytes} {offset : Nat}

/-- **Pages are read** from where they stand. The induction is on the places that are
still to be read. -/
theorem readPages_of_holdsAt {pages : List (Option StoredPage)}
    (h : data.HoldsAt offset (pages.flatMap StoredPage.bytes)) :
    readPages data pages.length offset = .ok (pages.map (Option.map StoredPage.page)) := by
  induction pages generalizing offset with
  | nil => rfl
  | cons first rest ih =>
    rw [List.flatMap_cons] at h
    rw [List.length_cons, readPages]
    have hrest := ih h.right
    cases first with
    | none =>
      have hflag : data.readWord .pageFlag offset = .ok 0 := h.left.readNumber (by decide) _
      rw [hflag, Except.ok_bind, if_pos rfl]
      exact Except.bind_eq_ok.mpr ⟨_, hrest, rfl⟩
    | some stored =>
      obtain ⟨flag, hflag, hpresent⟩ := StoredPage.exists_readWord_flag h.left
      have htexels : data.slice .page (offset + 6) (side * side * stored.page.depth)
          = .ok stored.page.data := StoredPage.slice_texels h.left
      rw [stored.length_bytes, ← Nat.add_assoc] at hrest
      rw [hflag, Except.ok_bind, if_neg hpresent, StoredPage.readWord_depth h.left, Except.ok_bind,
        if_neg stored.not_unknown_depth, htexels, Except.ok_bind]
      exact Except.bind_eq_ok.mpr ⟨_, hrest, rfl⟩

/-- **All pages are read.** -/
theorem readAll_of_holdsAt {pages : Vector (Option StoredPage) 42}
    (h : data.HoldsAt offset (pages.toList.flatMap StoredPage.bytes)) :
    readAll data offset = .ok (pages.toList.map (Option.map StoredPage.page)) := by
  have hstart : ¬data.size < offset :=
    Nat.not_lt.mpr (Nat.le_trans (Nat.le_add_right ..) h.le_size)
  have hread := readPages_of_holdsAt h
  rw [Vector.length_toList] at hread
  unfold readAll
  rw [if_neg hstart]
  exact hread

end TexturePage

/-! ## How a background is stored -/

/-- **A background section** as it is stored. -/
structure StoredBackground where
  opening : Vector UInt8 12
  /-- The flags of the palettes. -/
  flags : Vector UInt8 24
  layers : StoredLayers
  gap : Vector UInt8 7
  pages : Vector (Option StoredPage) 42
  tail : List UInt8
  /-- The number `0xFFFF` is that of no record. -/
  length_records_le : layers.records.length ≤ 0xFFFF

namespace StoredBackground

/-- **The bytes of a background section.** -/
def bytes (source : StoredBackground) : List UInt8 :=
  source.opening.toList ++ (source.flags.toList ++ (TileLayout.marker ++
    (source.layers.bytes ++ (source.gap.toList ++
      (source.pages.toList.flatMap StoredPage.bytes ++ source.tail)))))

section Places

variable {data : Bytes} {source : StoredBackground} (h : data.HoldsAt 0 source.bytes)

include h

theorem holdsAt_flags : data.HoldsAt 12 source.flags.toList :=
  (h.behind Vector.length_toList).left

theorem holdsAt_marker : data.HoldsAt 36 TileLayout.marker := by
  have hflags := h.behind Vector.length_toList
  exact (hflags.behind Vector.length_toList).left

/-- Behind the mark stand the layers and all the rest. -/
theorem holdsAt_behind_marker : data.HoldsAt 40 (source.layers.bytes ++ (source.gap.toList ++
    (source.pages.toList.flatMap StoredPage.bytes ++ source.tail))) := by
  have hflags := h.behind Vector.length_toList
  have hmarker := hflags.behind Vector.length_toList
  exact hmarker.behind rfl

theorem holdsAt_layers : data.HoldsAt 40 source.layers.bytes := (holdsAt_behind_marker h).left

theorem holdsAt_pages :
    data.HoldsAt (40 + source.layers.bytes.length + 7)
      (source.pages.toList.flatMap StoredPage.bytes) := by
  have hgap := (holdsAt_behind_marker h).right
  exact (hgap.behind Vector.length_toList).left

end Places

end StoredBackground

/-- **The layers of a background are found** behind the mark, and so is where they end. -/
theorem TileLayout.read_of_holdsAt {data : Bytes} {source : StoredBackground}
    (h : data.HoldsAt 0 source.bytes) :
    ∃ layout, read data = .ok layout
      ∧ List.Forall₂ (TileLayer.Matches data) layout.layers source.layers.layers
      ∧ layout.endOffset = 40 + source.layers.bytes.length := by
  have hflags : data.slice .paletteFlags Palette.flagsOffset Palette.maxCount = .ok _ :=
    (StoredBackground.holdsAt_flags h).slice Vector.length_toList _
  have hmarker : data.slice .backMarker markerOffset marker.length = .ok _ :=
    (StoredBackground.holdsAt_marker h).slice rfl _
  have hlayers := StoredBackground.holdsAt_layers h
  obtain ⟨layers, hread, hmatches⟩ := TileLayer.readAll_of_holdsAt hlayers
  have hcount : ¬maxSlots < slotCount ⟨layers, 40 + source.layers.bytes.length⟩ := by
    rw [slotCount_eq hmatches]
    exact Nat.not_lt.mpr source.length_records_le
  refine ⟨⟨layers, 40 + source.layers.bytes.length⟩, ?_, hmatches, rfl⟩
  have hmark : ¬marker.toArray.toList ≠ marker := fun hne => hne rfl
  unfold read
  rw [hflags, Except.ok_bind, hmarker, Except.ok_bind, if_neg hmark]
  refine Except.bind_eq_ok.mpr ⟨_, hread, ?_⟩
  dsimp only
  rw [if_neg (Nat.not_lt.mpr hlayers.le_size), if_neg hcount]

namespace BackgroundStore

/-- **What is read as a background**, stage by stage. -/
theorem decode_eq_ok {store : BackgroundStore} {paletteData : Bytes} {background : Background} :
    (store.decode paletteData).1 = .ok background
      ↔ Palette.readAll store.data paletteData = .ok background.palettes
        ∧ ∃ layout, store.layout = .ok layout
          ∧ background.layers = layout.layers ∧ background.tiles = layout.tiles store.data
          ∧ TexturePage.readAll store.data layout.textureOffset = .ok background.pages := by
  unfold decode withLayout
  constructor
  · intro h
    split at h
    · exact nomatch h
    · rename_i palettes hpalettes
      split at h
      · exact nomatch h
      · rename_i layout hlayout
        obtain ⟨pages, hpages, rfl⟩ := Except.map_eq_ok.mp h
        exact ⟨hpalettes, layout, hlayout, rfl, rfl, hpages⟩
  · rintro ⟨hpalettes, layout, hlayout, hlayers, htiles, hpages⟩
    rw [hpalettes, hlayout]
    refine Except.map_eq_ok.mpr ⟨_, hpages, ?_⟩
    rw [← hlayers, ← htiles]

/-- **A background is read back, component by component.** Take a background section and
a section of palettes, both put together from any parts that fit. Reading the background
succeeds. It gives the palettes with their flags, the layers that are there, a tile for
each record that is not free, and the pages; and afterwards the pages are known to start
seven bytes behind the last layer. -/
theorem decode_stored (source : StoredBackground) (colors : StoredPalettes) :
    ∃ background store,
      (ofBytes source.bytes.toArray).decode colors.bytes.toArray = (.ok background, store)
        ∧ background.palettes = colors.withFlags source.flags.toList
        ∧ (background.layers.map fun layer =>
            (layer.id, layer.width, layer.height, layer.tileCount))
          = (source.layers.layers.map fun ⟨id, layer⟩ =>
            (id, layer.width.toNat, layer.height.toNat, layer.records.length))
        ∧ background.tiles = source.layers.tiles
        ∧ background.pages = source.pages.toList.map (Option.map StoredPage.page)
        ∧ store.textureOffset? = some (40 + source.layers.bytes.length + 7) := by
  have h := Bytes.HoldsAt.toArray source.bytes
  obtain ⟨layout, hread, hmatches, hend⟩ := TileLayout.read_of_holdsAt h
  have hpalettes := Palette.readAll_eq (StoredBackground.holdsAt_flags h)
    (Bytes.HoldsAt.toArray colors.bytes)
  have hstart : layout.textureOffset = 40 + source.layers.bytes.length + 7 :=
    congrArg (· + TileLayout.textureGap) hend
  have hpages := TexturePage.readAll_of_holdsAt (StoredBackground.holdsAt_pages h)
  rw [← hstart] at hpages
  refine ⟨⟨_, layout.layers, layout.tiles source.bytes.toArray, _⟩,
    ⟨source.bytes.toArray, some layout⟩, ?_, rfl, ?_, TileLayout.tiles_eq hmatches, rfl,
    congrArg some hstart⟩
  · have hlayout : (ofBytes source.bytes.toArray).layout = .ok layout := hread
    have hdata : (ofBytes source.bytes.toArray).data = source.bytes.toArray := rfl
    unfold decode withLayout
    rw [hlayout, hdata, hpalettes]
    dsimp only
    rw [hpages]
    rfl
  · refine List.forall₂_eq_eq_eq ▸ List.forall₂_map_left_iff.mpr (List.forall₂_map_right_iff.mpr ?_)
    exact hmatches.imp fun layer stored hmatch => by
      rw [hmatch.id_eq, hmatch.width_eq, hmatch.height_eq, hmatch.tileCount_eq]

/-- A record of nothing but a sorting number. -/
def recordOf (low high : UInt8) : Vector UInt8 52 :=
  (Vector.replicate 52 0).set 22 low |>.set 23 high

/-- A section of the first and the third layer, with three records and a page. -/
def twoLayers : StoredBackground where
  opening := Vector.replicate 12 0
  flags := (Vector.replicate 24 0).set 1 3
  layers := {
    first := ⟨16, 8, Vector.replicate _ 0, [recordOf 0xFF 0xFF, recordOf 5 0], Vector.replicate 2 0,
      by decide⟩
    second? := none
    third? := some (⟨1, by decide⟩, ⟨2, 4, Vector.replicate _ 0, [recordOf 0xFF 0],
      Vector.replicate 2 0, by decide⟩)
    fourth? := none }
  gap := Vector.replicate 7 0
  pages := (Vector.replicate 42 none).set 2 (some ⟨1, by decide, Vector.replicate 2 0,
    ⟨1, Array.replicate 65536 9⟩, .inl rfl, Array.size_replicate⟩)
  tail := [1, 2, 3]
  length_records_le := by decide

/-- Two palettes of two colors. -/
def twoPalettes : StoredPalettes :=
  ⟨Vector.replicate 8 0, 2, [#v[0x7FFF, 0], #v[31, 992]], [], by decide, fun _ => by decide⟩

/-- The free record gives no tile, and it is counted. -/
theorem decode_stored_twoLayers :
    ∃ background store,
      (ofBytes twoLayers.bytes.toArray).decode twoPalettes.bytes.toArray = (.ok background, store)
        ∧ background.palettes = [⟨[0x7FFF, 0], 0⟩, ⟨[31, 992], 3⟩]
        ∧ (background.layers.map fun layer =>
            (layer.id, layer.width, layer.height, layer.tileCount)) = [(0, 16, 8, 2), (2, 2, 4, 1)]
        ∧ (background.tiles.map fun tile => (tile.id, tile.layer, tile.z)) = [(1, 0, 5), (2, 2, 255)]
        ∧ background.pages.map Option.isSome = (List.range 42).map (· == 2)
        ∧ store.textureOffset? = some 238 := by
  obtain ⟨background, store, hdecode, hpalettes, hlayers, htiles, hpages, hstart⟩ :=
    decode_stored twoLayers twoPalettes
  refine ⟨background, store, hdecode, hpalettes.trans (by decide +kernel),
    hlayers.trans (by decide +kernel), ?_, ?_, hstart.trans (by decide +kernel)⟩
  · rw [htiles]
    decide +kernel
  · rw [hpages]
    decide +kernel

end BackgroundStore

end FieldMap
