import FieldMap.Proofs.TileMap
import FieldMap.Proofs.TileRecords
import FieldMap.Proofs.TileSlots

/-!
# A background section is a store of tiles

A section and a layout that fits it hold a map from numbers to tiles
(`TileLayout.mapOf`). Reading through the layout gives what the map has to answer,
and writing a tile into a slot is inserting it into the map (`mapOf_writeAt`): the
tile is read back with all its fields, its slot is taken from then on, since no tile
has the sorting number of a free record, and no other slot can tell the difference,
since records do not overlap.

So each operation on the section does what the map says (`perform_of_holds`), and
so does each sequence of them, whether its operations succeed or fail
(`performAll_eq_map`).
-/

namespace FieldMap

namespace TileLayout

variable {layout : TileLayout} {data : Bytes} {layer : UInt8} {slot : TileSlot} {id : Nat}

/-- **The map that a section holds.** -/
def mapOf (layout : TileLayout) (data : Bytes) : TileMap where
  layers := layout.slots.map TileSlot.layer
  tile? id := layout.slots[id]?.bind fun slot =>
    if slot.isFree data then none
    else some (Tile.readAt data slot.offset (UInt16.ofNat id) slot.layer)

/-! ## What is read -/

theorem tile?_mapOf (h : layout.slots[id]? = some slot) :
    (layout.mapOf data).tile? id = if slot.isFree data then none
      else some (Tile.readAt data slot.offset (UInt16.ofNat id) slot.layer) := by
  unfold mapOf
  dsimp only
  rw [h, Option.bind_some]

theorem tile?_mapOf_of_none (h : layout.slots[id]? = none) :
    (layout.mapOf data).tile? id = none := by
  unfold mapOf
  dsimp only
  rw [h, Option.bind_none]

theorem layers_mapOf (h : layout.slots[id]? = some slot) :
    (layout.mapOf data).layers[id]? = some slot.layer := by
  show (layout.slots.map TileSlot.layer)[id]? = _
  rw [List.getElem?_map, h, Option.map_some]

theorem isFree_mapOf (h : layout.slots[id]? = some slot) :
    (layout.mapOf data).isFree layer id = (slot.layer == layer && slot.isFree data) := by
  unfold TileMap.isFree
  rw [layers_mapOf h, tile?_mapOf h, Option.some_beq_some]
  cases slot.isFree data <;> rfl

/-- The numbers of the map are those of the slots. -/
theorem ids_mapOf (layout : TileLayout) (data : Bytes) :
    (layout.mapOf data).ids = layout.slots.zipIdx.map Prod.snd := by
  unfold TileMap.ids mapOf
  dsimp only
  rw [List.length_map, List.zipIdx_map_snd, List.range_eq_range']

theorem tiles_mapOf (layout : TileLayout) (data : Bytes) :
    (layout.mapOf data).tiles = layout.tiles data := by
  unfold TileMap.tiles tiles
  rw [ids_mapOf, List.filterMap_map]
  exact List.filterMap_congr (fun entry hmem =>
    tile?_mapOf (List.mem_zipIdx_iff_getElem?.mp hmem))

theorem freeCount_mapOf (layout : TileLayout) (data : Bytes) (layer : UInt8) :
    (layout.mapOf data).freeCount layer = layout.freeCount data layer := by
  unfold TileMap.freeCount freeCount
  conv_rhs => rw [← List.zipIdx_map_fst 0 layout.slots]
  rw [ids_mapOf, List.countP_map, List.countP_map]
  refine List.countP_congr (fun entry hmem => ?_)
  rw [Function.comp_apply, isFree_mapOf (List.mem_zipIdx_iff_getElem?.mp hmem)]
  rfl

theorem freeId?_mapOf (layout : TileLayout) (data : Bytes) (layer : UInt8) :
    (layout.mapOf data).freeId? layer = (layout.freeSlot? data layer).map Prod.snd := by
  unfold TileMap.freeId? freeSlot?
  rw [ids_mapOf, List.find?_map]
  exact congrArg _ (List.find?_congr (fun entry hmem =>
    isFree_mapOf (List.mem_zipIdx_iff_getElem?.mp hmem)))

theorem of_freeSlot? (h : layout.freeSlot? data layer = some (slot, id)) :
    layout.slots[id]? = some slot ∧ slot.layer = layer ∧ slot.isFree data = true := by
  unfold freeSlot? at h
  have hfound := List.find?_some h
  obtain ⟨hlayer, hfree⟩ := Bool.and_eq_true_iff.mp hfound
  exact ⟨List.mk_mem_zipIdx_iff_getElem?.mp (List.mem_of_find?_eq_some h),
    beq_iff_eq.mp hlayer, hfree⟩

theorem of_takenSlot? {id : UInt16} (h : layout.takenSlot? data id = some slot) :
    layout.slots[id.toNat]? = some slot ∧ slot.isFree data = false := by
  unfold takenSlot? at h
  split_ifs at h
  obtain ⟨hslot, hfree⟩ := Option.filter_eq_some_iff.mp h
  exact ⟨hslot, Bool.not_eq_true' _ ▸ hfree⟩

/-- **A number is not in the map** if no slot of that number is taken. -/
theorem tile?_mapOf_eq_none (h : layout.slots.length ≤ maxSlots) {id : UInt16} :
    (layout.mapOf data).tile? id.toNat = none ↔ layout.takenSlot? data id = none := by
  unfold takenSlot?
  split_ifs with hpending
  · refine iff_of_true (tile?_mapOf_of_none ?_) rfl
    rw [hpending]
    exact List.getElem?_eq_none h
  · cases hslot : layout.slots[id.toNat]? with
    | none => exact iff_of_true (tile?_mapOf_of_none hslot) rfl
    | some slot =>
      rw [tile?_mapOf hslot, Option.filter_some]
      cases slot.isFree data <;> simp

/-! ## What is written -/

/-- **The records of other slots** stay as they are. -/
theorem Fits.byteAt_writeAt_of_ne (hfits : layout.Fits data.size) {other : TileSlot}
    {otherId : Nat} (hother : layout.slots[otherId]? = some other)
    (hslot : layout.slots[id]? = some slot) (hne : otherId ≠ id) (tile : Tile) :
    ∀ o < Tile.recordLength, (tile.writeAt data slot.offset).byteAt (other.offset + o)
      = data.byteAt (other.offset + o) := fun o ho => by
  have hapart := hfits.apart hother hslot hne
  exact Tile.byteAt_writeAt_of_outside tile (by omega)

/-- **Writing a tile into a slot** is inserting it into the map. -/
theorem mapOf_writeAt (hfits : layout.Fits data.size) {tile : Tile}
    (hslot : layout.slots[tile.id.toNat]? = some slot) (hlayer : slot.layer = tile.layer)
    (hz : tile.z ≠ Tile.pending) :
    layout.mapOf (tile.writeAt data slot.offset) = (layout.mapOf data).insert tile := by
  refine (TileMap.mk.injEq ..).mpr ⟨rfl, funext fun id => ?_⟩
  show (layout.mapOf _).tile? id = Function.update (layout.mapOf data).tile? tile.id.toNat _ id
  by_cases hid : id = tile.id.toNat
  · have hinside := hfits.le_size hslot
    rw [hid, Function.update_self, tile?_mapOf hslot, TileSlot.isFree_writeAt tile hinside,
      if_neg (by rwa [beq_iff_eq]), Tile.readAt_writeAt tile hinside, UInt16.ofNat_toNat, hlayer]
  · rw [Function.update_of_ne hid]
    cases hother : layout.slots[id]? with
    | none => rw [tile?_mapOf_of_none hother, tile?_mapOf_of_none hother]
    | some other =>
      have hagree := hfits.byteAt_writeAt_of_ne hother hslot hid tile
      rw [tile?_mapOf hother, tile?_mapOf hother, TileSlot.isFree_congr hagree,
        Tile.readAt_congr hagree]

end TileLayout

/-! ## What operations do -/

namespace BackgroundStore

/-- **What an operation does to a store.** -/
def perform (store : BackgroundStore) : TileOperation → TileOutcome × BackgroundStore
  | .tiles =>
    let (result, next) := store.tiles
    (⟨result.map .tiles, none⟩, next)
  | .freeSlots layer =>
    let (result, next) := store.freeSlots layer
    (⟨result.map .count, none⟩, next)
  | .setTile tile =>
    let (result, next) := store.setTile tile
    (⟨result.map fun _ => .done, some tile⟩, next)
  | .addTile tile =>
    let (result, stored, next) := store.allocate tile
    (⟨result.map .id, some stored⟩, next)

/-- **A store that holds a map**: its layout is known, or would be read, it fits the
section, and the map is what the section holds. -/
structure Holds (layout : TileLayout) (store : BackgroundStore) (map : TileMap) : Prop where
  layout_eq : store.layout = .ok layout
  fits : layout.Fits store.data.size
  mapOf_eq : layout.mapOf store.data = map

variable {layout : TileLayout} {store : BackgroundStore} {map : TileMap}

/-- A store whose layout was found still holds what it held. -/
theorem Holds.known (h : Holds layout store map) : Holds layout ⟨store.data, some layout⟩ map :=
  ⟨rfl, h.fits, h.mapOf_eq⟩

theorem Holds.withLayout {α : Type} (h : Holds layout store map)
    (act : TileLayout → Except CodecError α × Bytes) :
    store.withLayout act = ((act layout).1, ⟨(act layout).2, some layout⟩) := by
  unfold BackgroundStore.withLayout
  rw [h.layout_eq]

/-- **A tile that is written into its slot** is inserted into the map. -/
theorem Holds.writeAt (h : Holds layout store map) {tile : Tile} {slot : TileSlot}
    (hslot : layout.slots[tile.id.toNat]? = some slot) (hlayer : slot.layer = tile.layer)
    (hfault : tile.fault? = none) :
    Holds layout ⟨tile.writeAt store.data slot.offset, some layout⟩ (map.insert tile) := by
  refine ⟨rfl, ?_, ?_⟩
  · rw [Tile.size_writeAt]
    exact h.fits
  · obtain ⟨-, hz, -, -⟩ := Tile.fault?_eq_none.mp hfault
    rw [TileLayout.mapOf_writeAt h.fits hslot hlayer hz, h.mapOf_eq]

theorem setTile_of_holds (h : Holds layout store map) (tile : Tile) :
    (store.setTile tile).1 = (map.setTile tile).1
      ∧ Holds layout (store.setTile tile).2 (map.setTile tile).2 := by
  have hnone : (layout.mapOf store.data).tile? tile.id.toNat = none
      ↔ layout.takenSlot? store.data tile.id = none :=
    TileLayout.tile?_mapOf_eq_none h.fits.length_le
  unfold BackgroundStore.setTile TileMap.setTile
  rw [h.withLayout, ← Tile.fault?_eq_find?]
  rw [h.mapOf_eq] at hnone
  cases htaken : layout.takenSlot? store.data tile.id with
  | none =>
    rw [if_pos (hnone.mpr htaken)]
    exact ⟨rfl, h.known⟩
  | some slot =>
    have hslot := (TileLayout.of_takenSlot? htaken).1
    have hlayers : map.layers[tile.id.toNat]? = some slot.layer :=
      h.mapOf_eq ▸ TileLayout.layers_mapOf hslot
    rw [if_neg (fun hmap => nomatch htaken.symm.trans (hnone.mp hmap)), hlayers]
    dsimp only
    cases hfault : tile.fault? with
    | some fault => exact ⟨rfl, h.known⟩
    | none =>
      by_cases hlayer : slot.layer = tile.layer
      · rw [if_neg (not_not.mpr hlayer), if_neg (not_not.mpr (congrArg some hlayer))]
        dsimp only
        exact ⟨rfl, h.writeAt hslot hlayer hfault⟩
      · rw [if_pos hlayer, if_pos (fun heq => hlayer (Option.some.inj heq))]
        exact ⟨rfl, h.known⟩

theorem allocate_of_holds (h : Holds layout store map) (tile : Tile) :
    (store.allocate tile).1 = (map.allocate tile).1
      ∧ (store.allocate tile).2.1 = (map.allocate tile).2.1
      ∧ Holds layout (store.allocate tile).2.2 (map.allocate tile).2.2 := by
  have hfree := TileLayout.freeId?_mapOf layout store.data tile.layer
  rw [h.mapOf_eq] at hfree
  unfold BackgroundStore.allocate TileMap.allocate
  rw [h.layout_eq, hfree, ← Tile.fault?_eq_find?]
  dsimp only
  split_ifs
  · exact ⟨rfl, rfl, h.known⟩
  · cases hfault : tile.fault? with
    | some fault => exact ⟨rfl, rfl, h.known⟩
    | none =>
      cases hslot : layout.freeSlot? store.data tile.layer with
      | none => exact ⟨rfl, rfl, h.known⟩
      | some found =>
        obtain ⟨slot, id⟩ := found
        obtain ⟨hget, hlayer, -⟩ := TileLayout.of_freeSlot? hslot
        have hstored : layout.slots[(UInt16.ofNat id).toNat]? = some slot :=
          (h.fits.toNat_ofNat hget).symm ▸ hget
        dsimp only
        exact ⟨rfl, rfl, h.writeAt hstored hlayer hfault⟩

/-- **Each operation does what the map says.** -/
theorem perform_of_holds (h : Holds layout store map) (operation : TileOperation) :
    (store.perform operation).1 = (map.perform operation).1
      ∧ Holds layout (store.perform operation).2 (map.perform operation).2 := by
  cases operation with
  | tiles =>
    unfold perform BackgroundStore.tiles TileMap.perform
    rw [h.withLayout, ← h.mapOf_eq, TileLayout.tiles_mapOf]
    exact ⟨rfl, rfl, h.fits, rfl⟩
  | freeSlots layer =>
    unfold perform BackgroundStore.freeSlots TileMap.perform
    dsimp only
    rw [h.withLayout, ← h.mapOf_eq, TileLayout.freeCount_mapOf]
    exact ⟨rfl, rfl, h.fits, rfl⟩
  | setTile tile =>
    obtain ⟨hresult, hnext⟩ := setTile_of_holds h tile
    exact ⟨congrArg (fun result => TileOutcome.mk (result.map fun _ => .done) (some tile)) hresult,
      hnext⟩
  | addTile tile =>
    obtain ⟨hresult, hstored, hnext⟩ := allocate_of_holds h tile
    exact ⟨congrArg₂ (fun result stored => TileOutcome.mk (result.map .id) (some stored)) hresult
      hstored, hnext⟩

/-! ## What operations leave as it was -/

/-- What only looks at the section does not change it. -/
theorem data_withLayout {α : Type} {act : TileLayout → Except CodecError α × Bytes}
    (hact : ∀ layout, (act layout).2 = store.data) : (store.withLayout act).2.data = store.data := by
  unfold withLayout
  cases store.layout with
  | error fault => rfl
  | ok layout => exact hact layout

theorem data_tiles (store : BackgroundStore) : store.tiles.2.data = store.data :=
  data_withLayout fun _ => rfl

theorem data_freeSlots (store : BackgroundStore) (layer : UInt8) :
    (store.freeSlots layer).2.data = store.data := data_withLayout fun _ => rfl

/-- **Setting a tile** fails and changes no byte, or writes a valid tile into the taken
slot of its number. -/
theorem setTile_cases (store : BackgroundStore) (tile : Tile) :
    (∃ e, (store.setTile tile).1 = .error e ∧ (store.setTile tile).2.data = store.data)
      ∨ ∃ layout slot, store.layout = .ok layout
        ∧ layout.takenSlot? store.data tile.id = some slot ∧ tile.fault? = none
        ∧ slot.layer = tile.layer
        ∧ store.setTile tile = (.ok (), ⟨tile.writeAt store.data slot.offset, some layout⟩) := by
  unfold setTile withLayout
  cases hlayout : store.layout with
  | error fault => exact .inl ⟨fault, rfl, rfl⟩
  | ok layout =>
    dsimp only
    cases htaken : layout.takenSlot? store.data tile.id with
    | none => exact .inl ⟨_, rfl, rfl⟩
    | some slot =>
      cases hfault : tile.fault? with
      | some fault => exact .inl ⟨_, rfl, rfl⟩
      | none =>
        dsimp only
        by_cases hlayer : slot.layer = tile.layer
        · rw [if_neg (not_not.mpr hlayer)]
          dsimp only
          exact .inr ⟨layout, slot, rfl, htaken, rfl, hlayer, rfl⟩
        · rw [if_pos hlayer]
          exact .inl ⟨_, rfl, rfl⟩

/-- **Storing a pending tile** fails and changes nothing, or writes a valid tile into
the first free slot of its layer. -/
theorem allocate_cases (store : BackgroundStore) (tile : Tile) :
    (∃ e, (store.allocate tile).1 = .error e ∧ (store.allocate tile).2.1 = tile
        ∧ (store.allocate tile).2.2.data = store.data)
      ∨ ∃ layout slot id, store.layout = .ok layout ∧ tile.id = Tile.pending ∧ tile.fault? = none
        ∧ layout.freeSlot? store.data tile.layer = some (slot, id)
        ∧ store.allocate tile = (.ok (UInt16.ofNat id), { tile with id := UInt16.ofNat id },
          ⟨tile.writeAt store.data slot.offset, some layout⟩) := by
  unfold allocate
  cases hlayout : store.layout with
  | error fault => exact .inl ⟨fault, rfl, rfl, rfl⟩
  | ok layout =>
    dsimp only
    split_ifs with hpending
    · exact .inl ⟨_, rfl, rfl, rfl⟩
    · cases hfault : tile.fault? with
      | some fault => exact .inl ⟨_, rfl, rfl, rfl⟩
      | none =>
        cases hslot : layout.freeSlot? store.data tile.layer with
        | none => exact .inl ⟨_, rfl, rfl, rfl⟩
        | some found =>
          exact .inr ⟨layout, found.1, found.2, rfl, not_not.mp hpending, rfl, hslot, rfl⟩

/-- **A failing operation leaves everything as it was**: the bytes of the section, and
the tile that was passed. -/
theorem perform_of_error {operation : TileOperation} {e : CodecError}
    (h : (store.perform operation).1.answer = .error e) :
    (store.perform operation).2.data = store.data
      ∧ (store.perform operation).1.passed? = operation.tile? := by
  cases operation with
  | tiles => exact ⟨store.data_tiles, rfl⟩
  | freeSlots layer => exact ⟨store.data_freeSlots layer, rfl⟩
  | setTile tile =>
    have hresult : (store.setTile tile).1 = .error e := Except.map_eq_error.mp h
    rcases store.setTile_cases tile with ⟨-, -, hdata⟩ | ⟨layout, slot, -, -, -, -, hset⟩
    · exact ⟨hdata, rfl⟩
    · rw [hset] at hresult
      exact nomatch hresult
  | addTile tile =>
    have hresult : (store.allocate tile).1 = .error e := Except.map_eq_error.mp h
    rcases store.allocate_cases tile with ⟨-, -, htile, hdata⟩ | ⟨layout, slot, id, -, -, -, -, hadd⟩
    · exact ⟨hdata, congrArg some htile⟩
    · rw [hadd] at hresult
      exact nomatch hresult

/-! ## What a sequence of operations does -/

/-- A section whose layout can be read holds a map. -/
theorem holds_ofBytes {data : Bytes} (h : TileLayout.read data = .ok layout) :
    Holds layout (ofBytes data) (layout.mapOf data) := ⟨h, TileLayout.fits_of_read h, rfl⟩

/-- **A section is a store of tiles.** Take a section whose layout can be read, and any
sequence of operations on it. The slots are the ones of that layout throughout; the
outcomes are those of the map that the section held, and what the section holds in
the end is what has become of this map. The same holds of whatever operation comes
next: its outcome and its effect are those that the map says. If it fails, it leaves
the bytes and the tile that was passed as they were, and in no case it takes a
number out of the map. -/
theorem performAll_eq_map {data : Bytes} {layout : TileLayout}
    (h : TileLayout.read data = .ok layout) {operations : List TileOperation}
    {outcomes : List TileOutcome} {store : BackgroundStore}
    (hperform : TileOperation.performAll perform (ofBytes data) operations = (outcomes, store)) :
    store.layout = .ok layout
      ∧ TileOperation.performAll TileMap.perform (layout.mapOf data) operations
        = (outcomes, layout.mapOf store.data)
      ∧ ∀ operation,
        (layout.mapOf store.data).perform operation
            = ((store.perform operation).1, layout.mapOf (store.perform operation).2.data)
          ∧ (∀ e, (store.perform operation).1.answer = .error e →
            (store.perform operation).2.data = store.data
              ∧ (store.perform operation).1.passed? = operation.tile?)
          ∧ ∀ id, ((layout.mapOf store.data).tile? id).isSome →
            ((layout.mapOf (store.perform operation).2.data).tile? id).isSome := by
  have hstep : ∀ store map operation, Holds layout store map →
      (store.perform operation).1 = (map.perform operation).1
        ∧ Holds layout (store.perform operation).2 (map.perform operation).2 :=
    fun _ _ operation h => perform_of_holds h operation
  obtain ⟨houtcomes, hholds⟩ :=
    TileOperation.performAll_of_perform hstep (holds_ofBytes h) operations
  rw [hperform] at houtcomes hholds
  have hnow : Holds layout store (layout.mapOf store.data) := ⟨hholds.layout_eq, hholds.fits, rfl⟩
  refine ⟨hholds.layout_eq, Prod.ext houtcomes.symm hholds.mapOf_eq.symm, fun operation => ?_⟩
  obtain ⟨houtcome, hnext⟩ := perform_of_holds hnow operation
  refine ⟨Prod.ext houtcome.symm hnext.mapOf_eq.symm, fun e => perform_of_error, fun id hid => ?_⟩
  rw [hnext.mapOf_eq]
  exact TileMap.isSome_perform operation hid

/-- A section with one layer of two slots, the second of which is free. -/
def twoSlots : Bytes :=
  List.toArray <| List.replicate 36 0 ++ [0x42, 0x41, 0x43, 0x4B] ++
    [16, 0, 32, 0, 2, 0, 0, 0, 0, 0] ++ (List.replicate 22 1 ++ [5, 0] ++ List.replicate 28 2) ++
    (List.replicate 22 3 ++ [0xFF, 0xFF] ++ List.replicate 28 4) ++ [0, 0, 0, 0, 0]

/-- The free slot is given away once, a tile without a slot and one of an impossible
depth are refused, and the tile that was stored is moved. -/
theorem performAll_eq_map_twoSlots :
    TileLayout.read twoSlots = .ok ⟨[⟨0, 16, 32, 2, 50⟩], 159⟩
      ∧ (TileOperation.performAll TileMap.perform
          (TileLayout.mapOf ⟨[⟨0, 16, 32, 2, 50⟩], 159⟩ twoSlots)
          [.freeSlots 0, .addTile { Tile.blank 0 with z := 9, dstX := -160 }, .addTile (.blank 0),
            .setTile { Tile.blank 0 with id := 2 },
            .setTile { Tile.blank 0 with id := 1, depth := 3 },
            .setTile { Tile.blank 0 with id := 1, z := 7, dstY := 8, blending := true },
            .freeSlots 0]).1
        = [⟨.ok (.count 1), none⟩,
          ⟨.ok (.id 1), some { Tile.blank 0 with id := 1, z := 9, dstX := -160 }⟩,
          ⟨.error (.noFreeSlot 0), some (.blank 0)⟩,
          ⟨.error (.noSuchTile 2), some { Tile.blank 0 with id := 2 }⟩,
          ⟨.error (.invalidTile .badDepth), some { Tile.blank 0 with id := 1, depth := 3 }⟩,
          ⟨.ok .done, some { Tile.blank 0 with id := 1, z := 7, dstY := 8, blending := true }⟩,
          ⟨.ok (.count 0), none⟩] := by
  have hread : TileLayout.read twoSlots = .ok ⟨[⟨0, 16, 32, 2, 50⟩], 159⟩ := by decide +kernel
  refine ⟨hread, (congrArg Prod.fst (performAll_eq_map hread (Prod.eta _).symm).2.1).trans ?_⟩
  decide +kernel

end BackgroundStore

end FieldMap
