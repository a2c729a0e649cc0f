import FieldMap.Proofs.KnownLayout

/-!
# Edits that do not interfere

An edit of the tiles replaces a tile or adds one, and either way it writes one valid
tile into one slot (`TileEdit.Writes`). Which slot that is depends on the tiles that
stand in all the slots: a tile that is added goes into the first free one of its layer.

Two edits interfere if they replace the tile of one number, or if they add tiles to one
layer. Otherwise they write into different slots, and neither finds another slot after
the other: a tile that is replaced was there before and is there afterwards, and a tile
that is added takes a slot of a layer in which the other edit looks for none
(`TileEdit.Writes.writeAt`). Since records do not overlap, the order in which they are
written does not show.
-/

namespace FieldMap

/-- **An edit of the tiles**: replacing the one that has the number of the given one, or
adding one. -/
inductive TileEdit where
  | set (tile : Tile)
  | add (tile : Tile)

namespace TileEdit

/-- The tile that is stored. -/
def tile : TileEdit → Tile
  | set tile => tile
  | add tile => tile

/-- The operation that makes an edit. -/
def operation : TileEdit → TileOperation
  | set tile => .setTile tile
  | add tile => .addTile tile

/-- **Edits that interfere**: both replace the tile of one number, or both add a tile to
one layer. -/
def Interferes : TileEdit → TileEdit → Prop
  | set a, set b => a.id = b.id
  | add a, add b => a.layer = b.layer
  | _, _ => False

theorem Interferes.symm {first second : TileEdit} (h : first.Interferes second) :
    second.Interferes first := by
  cases first <;> cases second <;> first | exact Eq.symm h | exact h

/-- What comes of an edit that stores its tile in the slot with a number. -/
def outcome : TileEdit → Nat → TileOutcome
  | set tile, _ => ⟨.ok .done, some tile⟩
  | add tile, id => ⟨.ok (.id (UInt16.ofNat id)), some { tile with id := UInt16.ofNat id }⟩

/-- **An edit writes its tile into a slot**, given by its number: the taken slot of the
number of the tile, or the first free one of its layer. -/
inductive Writes (layout : TileLayout) (data : Bytes) : TileEdit → TileSlot → Nat → Prop
  | set {tile : Tile} {slot : TileSlot} (hfault : tile.fault? = none)
      (htaken : layout.takenSlot? data tile.id = some slot) (hlayer : slot.layer = tile.layer) :
      Writes layout data (.set tile) slot tile.id.toNat
  | add {tile : Tile} {slot : TileSlot} {id : Nat} (hfault : tile.fault? = none)
      (hpending : tile.id = Tile.pending)
      (hfree : layout.freeSlot? data tile.layer = some (slot, id)) :
      Writes layout data (.add tile) slot id

namespace Writes

variable {layout : TileLayout} {data : Bytes} {edit first second : TileEdit}
  {slot slot' : TileSlot} {id id' : Nat}

theorem getElem? (h : Writes layout data edit slot id) : layout.slots[id]? = some slot := by
  cases h with
  | set _ htaken => exact (TileLayout.of_takenSlot? htaken).1
  | add _ _ hfree => exact (TileLayout.of_freeSlot? hfree).1

/-- The slot into which a tile is written is taken from then on. -/
theorem isFree_writeAt (hfits : layout.Fits data.size) (h : Writes layout data edit slot id) :
    slot.isFree (edit.tile.writeAt data slot.offset) = false := by
  have hfault : edit.tile.fault? = none := by
    cases h with
    | set hfault | add hfault => exact hfault
  rw [TileSlot.isFree_writeAt _ (hfits.le_size h.getElem?), beq_eq_false_iff_ne]
  exact (Tile.fault?_eq_none.mp hfault).2.1

/-- **Edits that do not interfere write into different slots.** -/
theorem id_ne (h : Writes layout data first slot id) (h' : Writes layout data second slot' id')
    (hindependent : ¬first.Interferes second) : id ≠ id' := by
  intro hid
  obtain rfl : slot = slot' := Option.some.inj (h.getElem?.symm.trans (hid ▸ h'.getElem?))
  cases h with
  | set _ htaken =>
    cases h' with
    | set => exact hindependent (UInt16.toNat_inj.mp hid)
    | add _ _ hfree =>
      exact nomatch (TileLayout.of_takenSlot? htaken).2.symm.trans
        (TileLayout.of_freeSlot? hfree).2.2
  | add _ _ hfree =>
    cases h' with
    | set _ htaken =>
      exact nomatch (TileLayout.of_takenSlot? htaken).2.symm.trans
        (TileLayout.of_freeSlot? hfree).2.2
    | add _ _ hfree' =>
      exact hindependent ((TileLayout.of_freeSlot? hfree).2.1.symm.trans
        (TileLayout.of_freeSlot? hfree').2.1)

/-- A tile that is added cannot get the slot of an edit that does not interfere. -/
theorem isFree_of_independent {tile : Tile} (h : Writes layout data edit slot id)
    (hindependent : ¬Interferes (.add tile) edit) (hlayer : slot.layer = tile.layer) :
    slot.isFree data = false := by
  cases h with
  | set _ htaken => exact (TileLayout.of_takenSlot? htaken).2
  | add _ _ hfree =>
    exact absurd (hlayer.symm.trans (TileLayout.of_freeSlot? hfree).2.1) hindependent

/-- **An edit writes into the same slot after another one** that does not interfere with
it. -/
theorem writeAt (hfits : layout.Fits data.size) (h : Writes layout data first slot id)
    (h' : Writes layout data second slot' id') (hindependent : ¬first.Interferes second) :
    Writes layout (second.tile.writeAt data slot'.offset) first slot id := by
  have hfreeOf : ∀ {other : TileSlot} {otherId : Nat}, layout.slots[otherId]? = some other →
      otherId ≠ id' →
      other.isFree (second.tile.writeAt data slot'.offset) = other.isFree data :=
    fun hother hne => TileSlot.isFree_congr
      (hfits.byteAt_writeAt_of_ne hother h'.getElem? hne second.tile)
  have hne := h.id_ne h' hindependent
  have hslot := h.getElem?
  have htakenNow := h'.isFree_writeAt hfits
  cases h with
  | set hfault htaken hlayer =>
    refine .set hfault ?_ hlayer
    rw [← htaken]
    unfold TileLayout.takenSlot?
    rw [hslot, Option.filter_some, Option.filter_some, hfreeOf hslot hne]
  | @add tile _ _ hfault hpending hfree =>
    refine .add hfault hpending ?_
    rw [← hfree]
    unfold TileLayout.freeSlot?
    refine List.find?_congr fun entry hmem => ?_
    obtain ⟨other, otherId⟩ := entry
    have hother := List.mk_mem_zipIdx_iff_getElem?.mp hmem
    dsimp only
    by_cases hid : otherId = id'
    · -- the slot that was written is not found before, and not found now
      obtain rfl : other = slot' := Option.some.inj (hother.symm.trans (hid ▸ h'.getElem?))
      by_cases hlayer : other.layer = tile.layer
      · rw [htakenNow, h'.isFree_of_independent hindependent hlayer]
      · rw [beq_false_of_ne hlayer, Bool.false_and, Bool.false_and]
    · rw [hfreeOf hother hid]

end Writes

end TileEdit

/-! ## What an edit does to a store -/

namespace BackgroundStore

variable {store : BackgroundStore} {layout : TileLayout} {edit : TileEdit} {slot : TileSlot}
  {id : Nat}

theorem setTile_of_taken {tile : Tile} (hlayout : store.layout = .ok layout)
    (htaken : layout.takenSlot? store.data tile.id = some slot) (hfault : tile.fault? = none)
    (hlayer : slot.layer = tile.layer) :
    store.setTile tile = (.ok (), ⟨tile.writeAt store.data slot.offset, some layout⟩) := by
  unfold setTile withLayout
  rw [hlayout]
  dsimp only
  rw [htaken]
  dsimp only
  rw [hfault]
  dsimp only
  rw [if_neg (not_not.mpr hlayer)]

theorem allocate_of_free {tile : Tile} (hlayout : store.layout = .ok layout)
    (hpending : tile.id = Tile.pending) (hfault : tile.fault? = none)
    (hfree : layout.freeSlot? store.data tile.layer = some (slot, id)) :
    store.allocate tile = (.ok (UInt16.ofNat id), { tile with id := UInt16.ofNat id },
      ⟨tile.writeAt store.data slot.offset, some layout⟩) := by
  unfold allocate
  rw [hlayout]
  dsimp only
  rw [if_neg (not_not.mpr hpending), hfault]
  dsimp only
  rw [hfree]
  rfl

/-- **An edit that writes into a slot** succeeds. -/
theorem perform_of_writes (hlayout : store.layout = .ok layout)
    (h : TileEdit.Writes layout store.data edit slot id) :
    store.perform edit.operation
      = (edit.outcome id, ⟨edit.tile.writeAt store.data slot.offset, some layout⟩) := by
  cases h with
  | set hfault htaken hlayer =>
    unfold TileEdit.operation perform
    dsimp only
    rw [setTile_of_taken hlayout htaken hfault hlayer]
    rfl
  | add hfault hpending hfree =>
    unfold TileEdit.operation perform
    dsimp only
    rw [allocate_of_free hlayout hpending hfault hfree]
    rfl

/-- **An edit that succeeds** writes its tile into a slot. -/
theorem exists_writes_of_perform {answer : TileAnswer}
    (h : (store.perform edit.operation).1.answer = .ok answer) :
    ∃ layout slot id, store.layout = .ok layout
      ∧ TileEdit.Writes layout store.data edit slot id := by
  cases edit with
  | set tile =>
    obtain ⟨done, hresult, -⟩ := Except.map_eq_ok.mp (h : (store.setTile tile).1.map _ = _)
    rcases store.setTile_cases tile with
      ⟨e, herror, -⟩ | ⟨layout, slot, hlayout, htaken, hfault, hlayer, -⟩
    · exact nomatch hresult.symm.trans herror
    · exact ⟨layout, slot, _, hlayout, .set hfault htaken hlayer⟩
  | add tile =>
    obtain ⟨done, hresult, -⟩ := Except.map_eq_ok.mp (h : (store.allocate tile).1.map _ = _)
    rcases store.allocate_cases tile with
      ⟨e, herror, -⟩ | ⟨layout, slot, id, hlayout, hpending, hfault, hfree, -⟩
    · exact nomatch hresult.symm.trans herror
    · exact ⟨layout, slot, id, hlayout, .add hfault hpending hfree⟩

/-- **One edit after another** that does not interfere with it. -/
theorem performAll_of_writes {first second : TileEdit} {slot' : TileSlot} {id' : Nat}
    (hlayout : store.layout = .ok layout) (hfits : layout.Fits store.data.size)
    (hfirst : TileEdit.Writes layout store.data first slot id)
    (hsecond : TileEdit.Writes layout store.data second slot' id')
    (hindependent : ¬second.Interferes first) :
    TileOperation.performAll perform store [first.operation, second.operation]
      = ([first.outcome id, second.outcome id'],
        ⟨second.tile.writeAt (first.tile.writeAt store.data slot.offset) slot'.offset,
          some layout⟩) := by
  have hnext := hsecond.writeAt hfits hfirst hindependent
  unfold TileOperation.performAll
  rw [perform_of_writes hlayout hfirst]
  -- only where the second edit writes matters, not what the bytes are
  generalize first.tile.writeAt store.data slot.offset = data at hnext ⊢
  unfold TileOperation.performAll
  dsimp only
  rw [perform_of_writes rfl hnext]
  rfl

/-- **Edits that do not interfere can be made in either order.** Take any section, any
sequence of operations on it, and two edits that would both succeed now. If they do not
replace the tile of one number and do not add tiles to one layer, then both succeed in
either order with the outcomes that they would have alone, and the stores that come out,
with all their bytes, are the same. -/
theorem performAll_comm {data : Bytes} {operations : List BackgroundOperation}
    {store : BackgroundStore} (hrun : (ofBytes data).afterAll operations = store)
    (first second : TileEdit) {a b : TileAnswer}
    (hfirst : (store.perform first.operation).1.answer = .ok a)
    (hsecond : (store.perform second.operation).1.answer = .ok b)
    (hindependent : ¬first.Interferes second) :
    ∃ last, TileOperation.performAll perform store [first.operation, second.operation]
        = ([(store.perform first.operation).1, (store.perform second.operation).1], last)
      ∧ TileOperation.performAll perform store [second.operation, first.operation]
        = ([(store.perform second.operation).1, (store.perform first.operation).1], last) := by
  have hfresh : store.IsFresh := hrun ▸ (isFresh_ofBytes data).afterAll operations
  obtain ⟨layout, slot, id, hlayout, hwrites⟩ := exists_writes_of_perform hfirst
  obtain ⟨layout', slot', id', hlayout', hwrites'⟩ := exists_writes_of_perform hsecond
  obtain rfl := Except.ok.inj (hlayout.symm.trans hlayout')
  have hfits := TileLayout.fits_of_read (hfresh.symm.trans hlayout)
  have hapart := hfits.apart hwrites.getElem? hwrites'.getElem? (hwrites.id_ne hwrites' hindependent)
  rw [perform_of_writes hlayout hwrites, perform_of_writes hlayout hwrites',
    performAll_of_writes hlayout hfits hwrites hwrites' (fun h => hindependent h.symm),
    performAll_of_writes hlayout hfits hwrites' hwrites hindependent,
    Tile.writeAt_comm _ _ hapart]
  exact ⟨_, rfl, rfl⟩

/-- A record in which a blank tile with a sorting number was stored: the other bytes were
one value before that number and one behind it, and are still. -/
def blankRecord (z before behind : UInt8) : List UInt8 :=
  List.replicate 4 0 ++ List.replicate 4 before ++ (List.replicate 4 [0, before]).flatten ++
    [16, 0, 16, 0, 0, before] ++ [z, 0] ++ [0, 0] ++ (List.replicate 4 [0, behind]).flatten ++
    [1] ++ List.replicate 17 behind

/-- The section with two slots after a tile was stored in both. -/
def takenSlots : Bytes :=
  List.toArray <| List.replicate 36 0 ++ [0x42, 0x41, 0x43, 0x4B] ++
    [16, 0, 32, 0, 2, 0, 0, 0, 0, 0] ++ blankRecord 7 1 2 ++ blankRecord 9 3 4 ++ [0, 0, 0, 0, 0]

/-- The tile of a section with two slots is replaced, and the free slot is taken: in either
order, both records are written. -/
theorem performAll_comm_twoSlots :
    TileOperation.performAll perform (ofBytes twoSlots)
          [.setTile { Tile.blank 0 with id := 0, z := 7 }, .addTile { Tile.blank 0 with z := 9 }]
        = ([⟨.ok .done, some { Tile.blank 0 with id := 0, z := 7 }⟩,
            ⟨.ok (.id 1), some { Tile.blank 0 with id := 1, z := 9 }⟩],
          ⟨takenSlots, some ⟨[⟨0, 16, 32, 2, 50⟩], 159⟩⟩)
      ∧ TileOperation.performAll perform (ofBytes twoSlots)
          [.addTile { Tile.blank 0 with z := 9 }, .setTile { Tile.blank 0 with id := 0, z := 7 }]
        = ([⟨.ok (.id 1), some { Tile.blank 0 with id := 1, z := 9 }⟩,
            ⟨.ok .done, some { Tile.blank 0 with id := 0, z := 7 }⟩],
          ⟨takenSlots, some ⟨[⟨0, 16, 32, 2, 50⟩], 159⟩⟩)
      ∧ takenSlots ≠ twoSlots := by
  have hset : ((ofBytes twoSlots).perform
      (TileEdit.set { Tile.blank 0 with id := 0, z := 7 }).operation).1
        = ⟨.ok .done, some { Tile.blank 0 with id := 0, z := 7 }⟩ := by decide +kernel
  have hadd : ((ofBytes twoSlots).perform
      (TileEdit.add { Tile.blank 0 with z := 9 }).operation).1
        = ⟨.ok (.id 1), some { Tile.blank 0 with id := 1, z := 9 }⟩ := by decide +kernel
  have hlast : (TileOperation.performAll perform (ofBytes twoSlots)
      [.setTile { Tile.blank 0 with id := 0, z := 7 }, .addTile { Tile.blank 0 with z := 9 }]).2
        = ⟨takenSlots, some ⟨[⟨0, 16, 32, 2, 50⟩], 159⟩⟩ := by decide +kernel
  have hrun : (ofBytes twoSlots).afterAll [] = ofBytes twoSlots := rfl
  obtain ⟨last, hfirst, hsecond⟩ := performAll_comm hrun
    (.set { Tile.blank 0 with id := 0, z := 7 }) (.add { Tile.blank 0 with z := 9 })
    (by rw [hset]) (by rw [hadd]) not_false
  rw [hset, hadd] at hfirst hsecond
  obtain rfl : last = _ := (congrArg Prod.snd hfirst).symm.trans hlast
  exact ⟨hfirst, hsecond, by decide +kernel⟩

end BackgroundStore

end FieldMap
