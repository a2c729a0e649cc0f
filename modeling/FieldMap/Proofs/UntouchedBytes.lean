import FieldMap.Proofs.KnownLayout

/-!
# Bytes that no edit touches

A section holds more than its records, and a record holds more than a tile says. An
operation that succeeds in replacing a tile or in adding one writes the record of one slot
(`editedId?`), and of this record the bytes that a tile determines; any other operation
writes nothing. So along a sequence of operations every byte stays as it was, unless it is
such a byte of a slot that was written on the way (`IsFresh.byteAt_afterAll`).

The palettes have their flags in front of all records, and the texture pages stand behind
them. They are read from bytes that no tile can reach (`Palette.readAll_congr`,
`TexturePage.readAll_congr`), and what the layers say of themselves is read from the layout,
which stays. So whoever reads the background later finds all of it as it was, but for the
tiles (`unknown_bytes_kept`).
-/

namespace FieldMap

/-! ## What stands outside of the records -/

/-- Data of one size that agrees byte by byte. -/
theorem Bytes.getElem?_congr {data data' : Bytes} {i : Nat} (hsize : data'.size = data.size)
    (h : data'.byteAt i = data.byteAt i) : data'[i]? = data[i]? := by
  by_cases hi : i < data.size
  · have hi' : i < data'.size := hsize.symm ▸ hi
    rw [byteAt_eq_getElem hi', byteAt_eq_getElem hi] at h
    rw [Array.getElem?_eq_getElem hi', Array.getElem?_eq_getElem hi, h]
  · rw [Array.getElem?_eq_none (Nat.not_lt.mp hi),
      Array.getElem?_eq_none (hsize.trans_le (Nat.not_lt.mp hi))]

/-- **The palettes depend on the flags** of the background section only. -/
theorem Palette.readAll_congr {background background' : Bytes}
    (hsize : background'.size = background.size)
    (h : ∀ i < flagsOffset + maxCount, background'.byteAt i = background.byteAt i)
    (paletteData : Bytes) : readAll background' paletteData = readAll background paletteData := by
  unfold readAll
  refine bind_congr fun _ => bind_congr fun width => bind_congr fun count => ?_
  by_cases hcount : maxCount < count
  · rw [if_pos hcount, if_pos hcount]
  · have hflag : ∀ i < flagsOffset + count, background'.byteAt i = background.byteAt i :=
      fun i hi => h i (hi.trans_le (Nat.add_le_add_left (Nat.not_lt.mp hcount) _))
    rw [if_neg hcount, if_neg hcount, Bytes.slice_congr hsize (fun i _ => hflag i)]

namespace TexturePage

variable {data data' : Bytes}

/-- Pages depend on the bytes from their start on. -/
theorem readPages_congr (hsize : data'.size = data.size) (count : Nat) {offset : Nat}
    (h : ∀ i, offset ≤ i → data'.byteAt i = data.byteAt i) :
    readPages data' count offset = readPages data count offset := by
  induction count generalizing offset with
  | zero => rfl
  | succ count ih =>
    have hbehind : ∀ distance i, offset + distance ≤ i → data'.byteAt i = data.byteAt i :=
      fun distance i hi => h i ((Nat.le_add_right ..).trans hi)
    have hword : ∀ item distance, data'.readWord item (offset + distance)
        = data.readWord item (offset + distance) := fun item distance =>
      Bytes.readNumber_congr hsize (fun i hi _ => hbehind distance i hi) item
    have hflag : data'.readWord .pageFlag offset = data.readWord .pageFlag offset :=
      hword .pageFlag 0
    rw [readPages, readPages, hflag]
    refine bind_congr fun present => ?_
    split_ifs
    · rw [ih (hbehind 2)]
    · rw [hword .pageDepth 4]
      refine bind_congr fun depth => ?_
      split_ifs
      · rfl
      · rw [Bytes.slice_congr hsize (fun i hi _ => hbehind 6 i hi)]
        refine bind_congr fun texels => ?_
        rw [ih fun i hi => hbehind 6 i ((Nat.le_add_right ..).trans hi)]

theorem readAll_congr (hsize : data'.size = data.size) {offset : Nat}
    (h : ∀ i, offset ≤ i → data'.byteAt i = data.byteAt i) :
    readAll data' offset = readAll data offset := by
  unfold readAll
  rw [hsize, readPages_congr hsize pageCount h]

end TexturePage

/-- **What a background holds besides its tiles.** -/
def Background.besidesTiles (background : Background) :
    List Palette × List TileLayer × List (Option TexturePage) :=
  (background.palettes, background.layers, background.pages)

/-- **The bytes of a section that a tile determines**, given by the number of its slot. -/
def TileLayout.IsTileByte (layout : TileLayout) (id : UInt16) (i : Nat) : Prop :=
  ∃ slot, layout.slots[id.toNat]? = some slot ∧ ∃ o ∈ Tile.fieldOffsets, i = slot.offset + o

/-- A byte that belongs to no record is no byte of a tile. -/
theorem TileLayout.not_isTileByte_of_outside {layout : TileLayout} {i : Nat}
    (h : TileSlot.Outside layout.slots i) (id : UInt16) : ¬layout.IsTileByte id i := by
  rintro ⟨slot, hslot, o, ho, rfl⟩
  have hlt := Tile.lt_recordLength_of_mem o ho
  have hout := h slot (List.mem_of_getElem? hslot)
  omega

namespace BackgroundStore

/-- **Sections that agree outside of the records** and have the same layout hold the same
besides their tiles. Where no layout can be read, all bytes have to agree. -/
theorem decode_congr {data data' : Bytes} (hsize : data'.size = data.size)
    (hread : TileLayout.read data' = TileLayout.read data)
    (h : ∀ i, (∀ layout, TileLayout.read data = .ok layout → TileSlot.Outside layout.slots i) →
      data'.byteAt i = data.byteAt i) (paletteData : Bytes) :
    ((ofBytes data').decode paletteData).1.map Background.besidesTiles
      = ((ofBytes data).decode paletteData).1.map Background.besidesTiles := by
  have hflags : ∀ i < Palette.flagsOffset + Palette.maxCount, data'.byteAt i = data.byteAt i :=
    fun i hi => h i fun layout hlayout =>
      (TileLayout.fits_of_read hlayout).areBetween.outside_of_lt
        (hi.trans_le (Nat.le_add_right TileLayout.markerOffset _))
  have hpages : ∀ layout, TileLayout.read data = .ok layout →
      TexturePage.readAll data' layout.textureOffset
        = TexturePage.readAll data layout.textureOffset := fun layout hlayout =>
    TexturePage.readAll_congr hsize fun i hi => h i fun other hother => by
      obtain rfl : layout = other := Except.ok.inj (hlayout.symm.trans hother)
      exact (TileLayout.fits_of_read hlayout).areBetween.outside_of_le
        ((Nat.le_add_right ..).trans hi)
  unfold decode withLayout layout ofBytes
  dsimp only
  rw [Palette.readAll_congr hsize hflags, hread]
  cases Palette.readAll data paletteData with
  | error fault => rfl
  | ok palettes =>
    cases hlayout : TileLayout.read data with
    | error fault => rfl
    | ok layout =>
      dsimp only
      rw [hpages layout hlayout]
      cases TexturePage.readAll data layout.textureOffset with
      | error fault => rfl
      | ok pages => rfl

/-! ## What an operation writes -/

/-- **The slot that an operation writes**, by its number: that of the tile which is
replaced, or the one which a new tile gets. An operation that fails writes none. -/
def editedId? (store : BackgroundStore) : BackgroundOperation → Option UInt16
  | .onTiles (.setTile tile) => if (store.setTile tile).1.isOk then some tile.id else none
  | .onTiles (.addTile tile) => (store.addTile tile).1.toOption
  | _ => none

/-- **The slots that a sequence of operations writes**, by their numbers. -/
def editedIds (store : BackgroundStore) : List BackgroundOperation → List UInt16
  | [] => []
  | operation :: rest =>
    (store.editedId? operation).toList ++ (store.after operation).editedIds rest

namespace IsFresh

variable {store : BackgroundStore}

/-- **What an operation does to the bytes**: nothing, or it writes a tile into the slot of a
number. -/
theorem data_after_cases (h : store.IsFresh) (operation : BackgroundOperation) :
    (store.after operation).data = store.data
      ∨ ∃ layout slot id tile, TileLayout.read store.data = .ok layout
        ∧ store.editedId? operation = some id ∧ layout.slots[id.toNat]? = some slot
        ∧ (store.after operation).data = Tile.writeAt tile store.data slot.offset := by
  cases operation with
  | decode paletteData => exact .inl (store.data_decode paletteData)
  | onTiles operation =>
    cases operation with
    | tiles => exact .inl store.data_tiles
    | freeSlots layer => exact .inl (store.data_freeSlots layer)
    | setTile tile =>
      rcases store.setTile_cases tile with
        ⟨-, -, hdata⟩ | ⟨layout, slot, hlayout, htaken, -, -, hset⟩
      · exact .inl hdata
      · have hid : store.editedId? (.onTiles (.setTile tile)) = some tile.id := by
          unfold editedId?
          dsimp only
          rw [hset]
          rfl
        have hdata : (store.setTile tile).2.data = tile.writeAt store.data slot.offset := by
          rw [hset]
        exact .inr ⟨layout, slot, tile.id, tile, h.symm.trans hlayout, hid,
          (TileLayout.of_takenSlot? htaken).1, hdata⟩
    | addTile tile =>
      rcases store.allocate_cases tile with
        ⟨-, -, -, hdata⟩ | ⟨layout, slot, id, hlayout, -, -, hfree, hadd⟩
      · exact .inl hdata
      · have hslot := (TileLayout.of_freeSlot? hfree).1
        have hread : TileLayout.read store.data = .ok layout := h.symm.trans hlayout
        have hid : store.editedId? (.onTiles (.addTile tile)) = some (UInt16.ofNat id) := by
          unfold editedId? addTile
          dsimp only
          rw [hadd]
          rfl
        have hnumber := (TileLayout.fits_of_read hread).toNat_ofNat hslot
        have hdata : (store.allocate tile).2.2.data = tile.writeAt store.data slot.offset := by
          rw [hadd]
        exact .inr ⟨layout, slot, UInt16.ofNat id, tile, hread, hid, hnumber.symm ▸ hslot, hdata⟩

theorem size_after (h : store.IsFresh) (operation : BackgroundOperation) :
    (store.after operation).data.size = store.data.size := by
  rcases h.data_after_cases operation with hdata | ⟨layout, slot, id, tile, -, -, -, hdata⟩
  · rw [hdata]
  · rw [hdata, Tile.size_writeAt]

/-- **An operation leaves a byte as it was**, if this is no byte of a tile in the slot that
it writes. -/
theorem byteAt_after (h : store.IsFresh) (operation : BackgroundOperation) {i : Nat}
    (hi : ∀ layout, TileLayout.read store.data = .ok layout →
      ∀ id, store.editedId? operation = some id → ¬layout.IsTileByte id i) :
    (store.after operation).data.byteAt i = store.data.byteAt i := by
  rcases h.data_after_cases operation with
    hdata | ⟨layout, slot, id, tile, hread, hid, hslot, hdata⟩
  · rw [hdata]
  · rw [hdata]
    exact tile.byteAt_writeAt_of_ne fun o ho heq =>
      hi layout hread id hid ⟨slot, hslot, o, ho, heq.symm⟩

/-! ## What a sequence of operations writes -/

theorem size_afterAll (h : store.IsFresh) (operations : List BackgroundOperation) :
    (store.afterAll operations).data.size = store.data.size := by
  induction operations generalizing store with
  | nil => rfl
  | cons operation rest ih => exact (ih (h.after operation)).trans (h.size_after operation)

theorem read_data_afterAll (h : store.IsFresh) (operations : List BackgroundOperation) :
    TileLayout.read (store.afterAll operations).data = TileLayout.read store.data := by
  induction operations generalizing store with
  | nil => rfl
  | cons operation rest ih => exact (ih (h.after operation)).trans (h.read_data_after operation)

/-- **A sequence of operations leaves a byte as it was**, if this is no byte of a tile in a
slot that one of them writes. -/
theorem byteAt_afterAll (h : store.IsFresh) (operations : List BackgroundOperation) {i : Nat}
    (hi : ∀ layout, TileLayout.read store.data = .ok layout →
      ∀ id ∈ store.editedIds operations, ¬layout.IsTileByte id i) :
    (store.afterAll operations).data.byteAt i = store.data.byteAt i := by
  induction operations generalizing store with
  | nil => rfl
  | cons operation rest ih =>
    have hfirst := h.byteAt_after operation fun layout hread id hid =>
      hi layout hread id (List.mem_append_left _ (Option.mem_toList.mpr hid))
    have hrest := ih (h.after operation) fun layout hread id hid =>
      -- the layout is the same before the operation and after it
      hi layout ((h.read_data_after operation).symm.trans hread) id (List.mem_append_right _ hid)
    exact hrest.trans hfirst

end IsFresh

/-- **Bytes of which nothing is known are kept.** Take any section and any sequence of
operations on it, successful or not. The section keeps its length, and every byte stays as
it was, but for those that a tile determines in the slots which the operations that
succeeded have replaced or given away. So a background that is read later, by whoever knows
the section already or by one who starts with its bytes, has the palettes, the layers and
the texture pages that it had, and if it could not be read, then for the same reason. -/
theorem unknown_bytes_kept {data : Bytes} {operations : List BackgroundOperation}
    {store : BackgroundStore} (hrun : (ofBytes data).afterAll operations = store) :
    store.data.size = data.size
      ∧ (∀ i, (∀ layout, TileLayout.read data = .ok layout →
          ∀ id ∈ (ofBytes data).editedIds operations, ∀ slot,
            layout.slots[id.toNat]? = some slot →
            ∀ o ∈ [0, 1, 2, 3, 8, 10, 12, 14, 16, 17, 18, 19, 20, 22, 23, 24, 25, 26, 28, 30,
              32, 34], i ≠ slot.offset + o) →
        store.data[i]? = data[i]?)
      ∧ ∀ paletteData,
        (store.decode paletteData).1.map Background.besidesTiles
            = ((ofBytes data).decode paletteData).1.map Background.besidesTiles
          ∧ ((ofBytes store.data).decode paletteData).1.map Background.besidesTiles
            = ((ofBytes data).decode paletteData).1.map Background.besidesTiles := by
  subst hrun
  have hfresh := isFresh_ofBytes data
  have hsize := hfresh.size_afterAll operations
  have hlater : ∀ paletteData,
      ((ofBytes ((ofBytes data).afterAll operations).data).decode paletteData).1.map
          Background.besidesTiles
        = ((ofBytes data).decode paletteData).1.map Background.besidesTiles :=
    decode_congr hsize (hfresh.read_data_afterAll operations) fun i hi =>
      hfresh.byteAt_afterAll operations fun layout hread id _ =>
        TileLayout.not_isTileByte_of_outside (hi layout hread) id
  refine ⟨hsize, fun i hi => ?_, fun paletteData => ⟨?_, hlater paletteData⟩⟩
  · refine Bytes.getElem?_congr hsize (hfresh.byteAt_afterAll operations ?_)
    rintro layout hread id hid ⟨slot, hslot, o, ho, heq⟩
    exact hi layout hread id hid slot hslot o ho heq
  · rw [(hfresh.afterAll operations).decode_eq, hlater]

/-- A section with two slots and no texture pages. -/
def pagelessSlots : Bytes := (twoSlots.toList ++ List.replicate 91 0).toArray

/-- Both slots are written on the way, and an unknown byte in the record of the second stays
as it was, as does all that is no tile. -/
theorem unknown_bytes_kept_mixed :
    (ofBytes pagelessSlots).editedIds mixedOperations = [1, 0]
      ∧ ((ofBytes pagelessSlots).afterAll mixedOperations).data.size = 250
      ∧ ((ofBytes pagelessSlots).afterAll mixedOperations).data[106]? = some 3
      ∧ (((ofBytes pagelessSlots).afterAll mixedOperations).decode (Array.replicate 12 0)).1.map
          Background.besidesTiles
        = .ok ([], [⟨0, 16, 32, 2, 50⟩], List.replicate 42 none) := by
  obtain ⟨hsize, hbytes, hlater⟩ := unknown_bytes_kept
    (rfl : (ofBytes pagelessSlots).afterAll mixedOperations = _)
  have hread : TileLayout.read pagelessSlots = .ok ⟨[⟨0, 16, 32, 2, 50⟩], 159⟩ := by decide +kernel
  have hbefore : ((ofBytes pagelessSlots).decode (Array.replicate 12 0)).1.map
      Background.besidesTiles = .ok ([], [⟨0, 16, 32, 2, 50⟩], List.replicate 42 none) := by
    decide +kernel
  refine ⟨by decide +kernel, hsize.trans (by decide +kernel),
    (hbytes 106 ?_).trans (by decide +kernel),
    (hlater _).1.trans hbefore⟩
  intro layout hlayout id _ slot hslot
  obtain rfl := Except.ok.inj (hread.symm.trans hlayout)
  have hslots : ∀ slot ∈ TileLayout.slots ⟨[⟨0, 16, 32, 2, 50⟩], 159⟩,
      ∀ o ∈ [0, 1, 2, 3, 8, 10, 12, 14, 16, 17, 18, 19, 20, 22, 23, 24, 25, 26, 28, 30, 32, 34],
        106 ≠ slot.offset + o := by decide
  exact hslots slot (List.mem_of_getElem? hslot)

end BackgroundStore

end FieldMap
