import FieldMap.Proofs.Placement
import FieldMap.Proofs.TileRefinement

/-!
# A known layout stays right

A store remembers the layout of its tiles and never reads it again, however often
tiles are written after that. This is sound because a layout is read from bytes that
belong to no record: the mark, the bytes that announce layers and the headers of the
layers stand between the records, and a reader that walks over the layers skips the
records themselves. So two sections of one size that agree outside of the records
have the same layout (`TileLayout.read_congr`), and a tile that is written into a
slot leaves the layout as it was (`TileLayout.read_writeAt`).

A store is *fresh* if what it takes for its layout is what would be read from its
bytes now. Sections that nothing is known about are fresh, and every operation keeps
stores fresh, so a store can never be told from one that knows nothing yet
(`layout_never_stale`).
-/

namespace FieldMap

/-! ## What a layout is read from -/

/-- The bytes that belong to none of the records in some slots. -/
def TileSlot.Outside (slots : List TileSlot) (i : Nat) : Prop :=
  ∀ slot ∈ slots, i < slot.offset ∨ slot.offset + Tile.recordLength ≤ i

namespace TileSlot.AreBetween

variable {start stop : Nat} {slots : List TileSlot} {i : Nat}

theorem outside_of_lt (h : AreBetween start stop slots) (hi : i < start) : Outside slots i :=
  fun slot hmem => .inl (hi.trans_le (h.start_le slot hmem))

theorem outside_of_le (h : AreBetween start stop slots) (hi : stop ≤ i) : Outside slots i :=
  fun slot hmem => .inr ((h.le_stop slot hmem).trans hi)

end TileSlot.AreBetween

namespace TileLayer

variable {data data' : Bytes} {id : UInt8} {offset : Nat} {layer : TileLayer}

/-- **A layer is read from its header**: the records need only be there. -/
theorem readAt_congr (h : readAt data id offset = .ok layer) (hsize : data'.size = data.size)
    (hheader : ∀ i, offset ≤ i → i < layer.recordsOffset → data'.byteAt i = data.byteAt i) :
    readAt data' id offset = .ok layer := by
  have hlong : offset + 6 ≤ layer.recordsOffset := by
    rw [(of_readAt h).2]
    unfold headerLength
    omega
  have hword : ∀ item o, o + 2 ≤ 6 →
      data'.readWord item (offset + o) = data.readWord item (offset + o) := fun item o ho =>
    Bytes.readNumber_congr hsize (fun i hlow hhigh => hheader i (by omega) (by omega)) item
  unfold readAt at h ⊢
  obtain ⟨width, hwidth, h⟩ := Except.bind_eq_ok.mp h
  obtain ⟨height, hheight, h⟩ := Except.bind_eq_ok.mp h
  obtain ⟨tileCount, hcount, h⟩ := Except.bind_eq_ok.mp h
  obtain ⟨records, hrecords, h⟩ := Except.bind_eq_ok.mp h
  have hfits := (Bytes.slice_eq_ok.mp hrecords).1
  rw [← hsize] at hfits
  refine Except.bind_eq_ok.mpr ⟨width, (hword _ 0 (by decide)).trans hwidth, ?_⟩
  refine Except.bind_eq_ok.mpr ⟨height, (hword _ 2 (by decide)).trans hheight, ?_⟩
  refine Except.bind_eq_ok.mpr ⟨tileCount, (hword _ 4 (by decide)).trans hcount, ?_⟩
  exact Except.bind_eq_ok.mpr ⟨_, Bytes.slice_eq_ok.mpr ⟨hfits, rfl⟩, h⟩

/-- **A layer in front of other slots.** What agrees outside of all these slots has the
same layer, and agrees behind it outside of the others. -/
theorem readAt_congr_append {behind : List TileSlot} {stop : Nat}
    (h : readAt data id offset = .ok layer) (hsize : data'.size = data.size)
    (hbehind : TileSlot.AreBetween layer.endOffset stop behind)
    (hagree : ∀ i, offset ≤ i → TileSlot.Outside (layer.slots ++ behind) i →
      data'.byteAt i = data.byteAt i) :
    readAt data' id offset = .ok layer
      ∧ ∀ i, layer.endOffset ≤ i → TileSlot.Outside behind i →
        data'.byteAt i = data.byteAt i := by
  obtain ⟨hle, hslots⟩ := areBetween_of_readAt h
  refine ⟨readAt_congr h hsize fun i hlow hhigh => ?_, fun i hi hout => ?_⟩
  · have hstop : i < layer.endOffset := by
      unfold endOffset
      omega
    exact hagree i hlow (List.forall_mem_append.mpr
      ⟨layer.areBetween_slots.outside_of_lt hhigh, hbehind.outside_of_lt hstop⟩)
  · exact hagree i (hle.trans hi) (List.forall_mem_append.mpr ⟨hslots.outside_of_le hi, hout⟩)

/-- **Layers are read from what lies outside of their records.** The induction is on
the layers that may still follow. -/
theorem readOptional_congr {ids : List UInt8} {layers : List TileLayer} {stop : Nat}
    (h : readOptional data ids offset = .ok (layers, stop)) (hsize : data'.size = data.size)
    (hagree : ∀ i, offset ≤ i → TileSlot.Outside (layers.flatMap slots) i →
      data'.byteAt i = data.byteAt i) :
    readOptional data' ids offset = .ok (layers, stop) := by
  induction ids generalizing offset layers with
  | nil => exact h
  | cons id rest ih =>
    have hflag : TileSlot.AreBetween (offset + 1) stop (layers.flatMap slots) →
        data'.readByte .layerFlag offset = data.readByte .layerFlag offset := fun hslots =>
      Bytes.readNumber_congr hsize
        (fun i hlow hhigh => hagree i hlow (hslots.outside_of_lt hhigh)) _
    rw [readOptional] at h ⊢
    obtain ⟨present, hpresent, h⟩ := Except.bind_eq_ok.mp h
    rw [hpresent] at hflag
    split_ifs at h with habsent
    · rw [hflag (areBetween_of_readOptional h).2, Except.ok_bind, if_pos habsent]
      exact ih h fun i hi => hagree i (Nat.le_of_succ_le hi)
    · obtain ⟨layer, hlayer, h⟩ := Except.bind_eq_ok.mp h
      obtain ⟨⟨others, last⟩, hothers, h⟩ := Except.bind_eq_ok.mp h
      obtain ⟨rfl, rfl⟩ := Prod.mk.inj (Except.ok.inj h)
      obtain ⟨hle, hslots⟩ := areBetween_of_readAt hlayer
      obtain ⟨hrest, hbehind⟩ := areBetween_of_readOptional hothers
      rw [List.flatMap_cons] at hflag hagree
      obtain ⟨hlayer', hagree'⟩ := readAt_congr_append hlayer hsize hbehind
        fun i hi => hagree i (Nat.le_of_succ_le hi)
      rw [hflag (hslots.append hbehind hle hrest), Except.ok_bind, if_neg habsent, hlayer',
        Except.ok_bind, ih hothers hagree']
      rfl

theorem readAll_congr {layers : List TileLayer} {stop : Nat}
    (h : readAll data offset = .ok (layers, stop)) (hsize : data'.size = data.size)
    (hagree : ∀ i, offset ≤ i → TileSlot.Outside (layers.flatMap slots) i →
      data'.byteAt i = data.byteAt i) :
    readAll data' offset = .ok (layers, stop) := by
  unfold readAll at h ⊢
  obtain ⟨first, hfirst, h⟩ := Except.bind_eq_ok.mp h
  obtain ⟨⟨others, last⟩, hothers, h⟩ := Except.bind_eq_ok.mp h
  obtain ⟨rfl, rfl⟩ := Prod.mk.inj (Except.ok.inj h)
  rw [List.flatMap_cons] at hagree
  obtain ⟨hfirst', hagree'⟩ :=
    readAt_congr_append hfirst hsize (areBetween_of_readOptional hothers).2 hagree
  rw [hfirst', Except.ok_bind, readOptional_congr hothers hsize hagree']
  rfl

end TileLayer

namespace TileLayout

variable {data data' : Bytes} {layout : TileLayout}

/-- **A layout depends on no record**: sections of one size that agree outside of the
records have the same layout. -/
theorem read_congr (h : read data = .ok layout) (hsize : data'.size = data.size)
    (hagree : ∀ i, TileSlot.Outside layout.slots i → data'.byteAt i = data.byteAt i) :
    read data' = .ok layout := by
  have hslots := (fits_of_read h).areBetween
  have hfront : ∀ item offset count, offset + count ≤ markerOffset + marker.length →
      data'.slice item offset count = data.slice item offset count := fun item offset count hle =>
    Bytes.slice_congr hsize
      (fun i _ hi => hagree i (hslots.outside_of_lt (hi.trans_le hle))) item
  unfold read at h ⊢
  obtain ⟨flags, hflags, h⟩ := Except.bind_eq_ok.mp h
  obtain ⟨mark, hmark, h⟩ := Except.bind_eq_ok.mp h
  rw [hfront _ _ _ (Nat.le_add_right ..), hflags, Except.ok_bind, hfront _ _ _ le_rfl, hmark,
    Except.ok_bind, hsize]
  split_ifs at h ⊢
  obtain ⟨⟨layers, stop⟩, hlayers, h⟩ := Except.bind_eq_ok.mp h
  have hlayout : (⟨layers, stop⟩ : TileLayout) = layout := by
    dsimp only at h
    split_ifs at h
    exact Except.ok.inj h
  rw [← hlayout] at hagree
  rw [TileLayer.readAll_congr hlayers hsize fun i _ => hagree i]
  exact h

/-- **A tile that is written into a slot** leaves the layout as it was. -/
theorem read_writeAt (h : read data = .ok layout) {slot : TileSlot} (hmem : slot ∈ layout.slots)
    (tile : Tile) : read (tile.writeAt data slot.offset) = .ok layout :=
  read_congr h (tile.size_writeAt data slot.offset)
    fun _ hout => tile.byteAt_writeAt_of_outside (hout slot hmem)

end TileLayout

/-! ## Stores that know their layout -/

/-- **An operation on a background section**: reading all of it, with the colors of the
palettes from some palette section, or an operation on its tiles. -/
inductive BackgroundOperation where
  | decode (paletteData : Bytes)
  | onTiles (operation : TileOperation)

namespace BackgroundStore

/-- The store after an operation, whether that succeeds or fails. -/
def after (store : BackgroundStore) : BackgroundOperation → BackgroundStore
  | .decode paletteData => (store.decode paletteData).2
  | .onTiles operation => (store.perform operation).2

/-- The store after a sequence of operations. -/
def afterAll (store : BackgroundStore) (operations : List BackgroundOperation) :
    BackgroundStore := operations.foldl after store

/-! ### What a store takes for its layout -/

theorem layout_withLayout {α : Type} (store : BackgroundStore)
    (act : TileLayout → Except CodecError α × Bytes) :
    (store.withLayout act).2.layout = store.layout := by
  unfold withLayout
  cases hlayout : store.layout with
  | error fault => exact hlayout
  | ok layout => rfl

theorem layout_decode (store : BackgroundStore) (paletteData : Bytes) :
    (store.decode paletteData).2.layout = store.layout := by
  unfold decode
  cases Palette.readAll store.data paletteData with
  | error fault => rfl
  | ok palettes => exact store.layout_withLayout _

theorem layout_allocate (store : BackgroundStore) (tile : Tile) :
    (store.allocate tile).2.2.layout = store.layout := by
  unfold allocate
  cases hlayout : store.layout with
  | error fault => exact hlayout
  | ok layout =>
    dsimp only
    split_ifs
    · rfl
    · cases tile.fault? with
      | some fault => rfl
      | none =>
        cases layout.freeSlot? store.data tile.layer with
        | none => rfl
        | some found => rfl

/-- **No operation changes what a store takes for its layout**, be it known already or
only what would be read. -/
theorem layout_after (store : BackgroundStore) (operation : BackgroundOperation) :
    (store.after operation).layout = store.layout := by
  cases operation with
  | decode paletteData => exact store.layout_decode paletteData
  | onTiles operation =>
    cases operation with
    | tiles =>
      show store.tiles.2.layout = store.layout
      exact store.layout_withLayout _
    | freeSlots layer =>
      show (store.freeSlots layer).2.layout = store.layout
      exact store.layout_withLayout _
    | setTile tile =>
      show (store.setTile tile).2.layout = store.layout
      exact store.layout_withLayout _
    | addTile tile => exact store.layout_allocate tile

/-! ### Fresh stores -/

/-- **A fresh store** takes for its layout what would be read from its bytes. -/
def IsFresh (store : BackgroundStore) : Prop := store.layout = TileLayout.read store.data

theorem isFresh_ofBytes (data : Bytes) : (ofBytes data).IsFresh := rfl

theorem data_decode (store : BackgroundStore) (paletteData : Bytes) :
    (store.decode paletteData).2.data = store.data := by
  unfold decode
  cases Palette.readAll store.data paletteData with
  | error fault => rfl
  | ok palettes => exact data_withLayout fun _ => rfl

namespace IsFresh

variable {store : BackgroundStore}

/-- **An operation on a fresh store** leaves bytes from which the same is read. -/
theorem read_data_after (h : store.IsFresh) (operation : BackgroundOperation) :
    TileLayout.read (store.after operation).data = TileLayout.read store.data := by
  cases operation with
  | decode paletteData => exact congrArg TileLayout.read (store.data_decode paletteData)
  | onTiles operation =>
    cases operation with
    | tiles => exact congrArg TileLayout.read store.data_tiles
    | freeSlots layer => exact congrArg TileLayout.read (store.data_freeSlots layer)
    | setTile tile =>
      show TileLayout.read (store.setTile tile).2.data = TileLayout.read store.data
      rcases store.setTile_cases tile with
        ⟨-, -, hdata⟩ | ⟨layout, slot, hlayout, htaken, -, -, hset⟩
      · rw [hdata]
      · have hread : TileLayout.read store.data = .ok layout := h.symm.trans hlayout
        have hmem := List.mem_of_getElem? (TileLayout.of_takenSlot? htaken).1
        rw [hset, hread]
        dsimp only
        exact TileLayout.read_writeAt hread hmem tile
    | addTile tile =>
      show TileLayout.read (store.allocate tile).2.2.data = TileLayout.read store.data
      rcases store.allocate_cases tile with
        ⟨-, -, -, hdata⟩ | ⟨layout, slot, id, hlayout, -, -, hfree, hadd⟩
      · rw [hdata]
      · have hread : TileLayout.read store.data = .ok layout := h.symm.trans hlayout
        have hmem := List.mem_of_getElem? (TileLayout.of_freeSlot? hfree).1
        rw [hadd, hread]
        dsimp only
        exact TileLayout.read_writeAt hread hmem tile

theorem after (h : store.IsFresh) (operation : BackgroundOperation) :
    (store.after operation).IsFresh :=
  (store.layout_after operation).trans (h.trans (h.read_data_after operation).symm)

theorem afterAll (h : store.IsFresh) (operations : List BackgroundOperation) :
    (store.afterAll operations).IsFresh := by
  unfold BackgroundStore.afterAll
  induction operations generalizing store with
  | nil => exact h
  | cons operation rest ih => exact ih (h.after operation)

/-- **What a fresh store knows** is what is read from its bytes. -/
theorem read_eq_ok (h : store.IsFresh) {layout : TileLayout} (hknown : store.layout? = some layout) :
    TileLayout.read store.data = .ok layout := by
  rw [← h]
  unfold BackgroundStore.layout
  rw [hknown]

/-- What is done with the layout of a fresh store gives what it gives on a store that
knows nothing yet. -/
theorem withLayout_eq (h : store.IsFresh) {α : Type}
    (act : TileLayout → Except CodecError α × Bytes) :
    (store.withLayout act).1 = ((ofBytes store.data).withLayout act).1 := by
  have hlayout : (ofBytes store.data).layout = store.layout := h.symm
  unfold withLayout
  rw [hlayout]
  cases store.layout with
  | error fault => rfl
  | ok layout => rfl

theorem decode_eq (h : store.IsFresh) (paletteData : Bytes) :
    (store.decode paletteData).1 = ((ofBytes store.data).decode paletteData).1 := by
  have hdata : (ofBytes store.data).data = store.data := rfl
  unfold BackgroundStore.decode
  rw [hdata]
  cases Palette.readAll store.data paletteData with
  | error fault => rfl
  | ok palettes => exact h.withLayout_eq _

end IsFresh

/-- **The known layout never goes stale.** Take any section and any sequence of
operations on it, successful or not. Once the start of the texture pages is known,
the layout that is read from the bytes as they are now is the known one, the pages
start where it says, its records lie inside the section and in front of the pages,
and no two of them overlap. So reading the whole background, listing the tiles and
counting free slots gives the same value or the same error as it does on a store that
knows nothing but these bytes. -/
theorem layout_never_stale {data : Bytes} {operations : List BackgroundOperation}
    {store : BackgroundStore} (hrun : (ofBytes data).afterAll operations = store) :
    (∀ start, store.textureOffset? = some start →
        ∃ layout, store.layout? = some layout ∧ TileLayout.read store.data = .ok layout
          ∧ layout.textureOffset = start
          ∧ (∀ slot ∈ layout.slots, slot.offset + Tile.recordLength ≤ store.data.size
            ∧ slot.offset + Tile.recordLength ≤ start)
          ∧ layout.slots.Pairwise fun a b => a.offset + Tile.recordLength ≤ b.offset)
      ∧ (∀ paletteData, (store.decode paletteData).1 = ((ofBytes store.data).decode paletteData).1)
      ∧ store.tiles.1 = (ofBytes store.data).tiles.1
      ∧ ∀ layer, (store.freeSlots layer).1 = ((ofBytes store.data).freeSlots layer).1 := by
  have hfresh : store.IsFresh := hrun ▸ (isFresh_ofBytes data).afterAll operations
  refine ⟨fun start hstart => ?_, hfresh.decode_eq, hfresh.withLayout_eq _,
    fun layer => hfresh.withLayout_eq _⟩
  obtain ⟨layout, hknown, hoffset⟩ := Option.map_eq_some_iff.mp hstart
  have hread := hfresh.read_eq_ok hknown
  have hfits := TileLayout.fits_of_read hread
  refine ⟨layout, hknown, hread, hoffset, fun slot hmem => ?_, hfits.areBetween.apart⟩
  have hstop := hfits.areBetween.le_stop slot hmem
  exact ⟨hstop.trans hfits.endOffset_le, hoffset ▸ hstop.trans (Nat.le_add_right ..)⟩

/-- Operations on a section with two slots: reading it fails for want of palettes, the
free slot is taken, a tile of an impossible depth is refused, and the first tile is
replaced. -/
def mixedOperations : List BackgroundOperation :=
  [.decode #[], .onTiles (.addTile { Tile.blank 0 with z := 9 }),
    .onTiles (.setTile { Tile.blank 0 with id := 1, depth := 3 }),
    .onTiles (.setTile { Tile.blank 0 with id := 0, z := 7, dstX := -160 })]

/-- The bytes change, and the layout that was found before stays right. -/
theorem layout_never_stale_mixed :
    ((ofBytes twoSlots).afterAll mixedOperations).data ≠ twoSlots
      ∧ ((ofBytes twoSlots).afterAll mixedOperations).textureOffset? = some 166
      ∧ TileLayout.read ((ofBytes twoSlots).afterAll mixedOperations).data
        = .ok ⟨[⟨0, 16, 32, 2, 50⟩], 159⟩ := by
  have hstart : ((ofBytes twoSlots).afterAll mixedOperations).textureOffset? = some 166 := by
    decide +kernel
  have hknown : ((ofBytes twoSlots).afterAll mixedOperations).layout?
      = some ⟨[⟨0, 16, 32, 2, 50⟩], 159⟩ := by decide +kernel
  obtain ⟨layout, hlayout, hread, -⟩ :=
    (layout_never_stale (rfl : (ofBytes twoSlots).afterAll mixedOperations = _)).1 166 hstart
  rw [hknown, Option.some.injEq] at hlayout
  exact ⟨by decide +kernel, hstart, hlayout ▸ hread⟩

end BackgroundStore

end FieldMap
