import FieldMap.Background.Layout
import FieldMap.Proofs.Readers
import Mathlib.Order.Nat
import Mathlib.Tactic.SplitIfs

/-!
# Where slots lie

The slots of a layout lie one behind the other, in the order of their numbers, and
all of them between the mark in front of the layers and the end of the last one
(`AreBetween`). A layer is read from where the one before it ended, so this is put
together layer by layer. That the section is long enough, and that there are not
too many slots, is checked when the layout is read (`TileLayout.Fits`).
-/

namespace FieldMap

/-- **Slots that lie one behind the other** between two offsets. -/
structure TileSlot.AreBetween (start stop : Nat) (slots : List TileSlot) : Prop where
  apart : slots.Pairwise fun a b => a.offset + Tile.recordLength ≤ b.offset
  start_le : ∀ slot ∈ slots, start ≤ slot.offset
  le_stop : ∀ slot ∈ slots, slot.offset + Tile.recordLength ≤ stop

namespace TileSlot.AreBetween

variable {start stop start' stop' : Nat} {slots slots' : List TileSlot}

theorem nil (start stop : Nat) : AreBetween start stop [] :=
  ⟨.nil, fun _ hmem => absurd hmem List.not_mem_nil, fun _ hmem => absurd hmem List.not_mem_nil⟩

theorem mono (h : AreBetween start stop slots) (hstart : start' ≤ start) (hstop : stop ≤ stop') :
    AreBetween start' stop' slots :=
  ⟨h.apart, fun slot hmem => hstart.trans (h.start_le slot hmem),
    fun slot hmem => (h.le_stop slot hmem).trans hstop⟩

/-- Slots behind other slots. -/
theorem append (h : AreBetween start stop slots) (h' : AreBetween stop stop' slots')
    (hstart : start ≤ stop) (hstop : stop ≤ stop') : AreBetween start stop' (slots ++ slots') where
  apart := List.pairwise_append.mpr ⟨h.apart, h'.apart, fun a ha b hb =>
    (h.le_stop a ha).trans (h'.start_le b hb)⟩
  start_le := List.forall_mem_append.mpr ⟨h.start_le, fun b hb =>
    hstart.trans (h'.start_le b hb)⟩
  le_stop := List.forall_mem_append.mpr ⟨fun a ha => (h.le_stop a ha).trans hstop, h'.le_stop⟩

end TileSlot.AreBetween

namespace TileLayer

variable {data : Bytes} {id : UInt8} {offset : Nat} {layer : TileLayer}

/-- The slots of a layer lie at equal distances. -/
theorem areBetween_slots (layer : TileLayer) :
    TileSlot.AreBetween layer.recordsOffset
      (layer.recordsOffset + layer.tileCount * Tile.recordLength) layer.slots where
  apart := by
    unfold slots
    refine List.pairwise_map.mpr (List.pairwise_lt_range.imp (fun {i j} hlt => ?_))
    have hmul := Nat.mul_le_mul_right Tile.recordLength (Nat.succ_le_of_lt hlt)
    rw [Nat.succ_mul] at hmul
    show layer.recordsOffset + i * Tile.recordLength + Tile.recordLength
      ≤ layer.recordsOffset + j * Tile.recordLength
    omega
  start_le := by
    unfold slots
    exact List.forall_mem_map.mpr (fun i _ => Nat.le_add_right ..)
  le_stop := by
    unfold slots
    refine List.forall_mem_map.mpr (fun i hmem => ?_)
    have hmul := Nat.mul_le_mul_right Tile.recordLength
      (Nat.succ_le_of_lt (List.mem_range.mp hmem))
    rw [Nat.succ_mul] at hmul
    show layer.recordsOffset + i * Tile.recordLength + Tile.recordLength
      ≤ layer.recordsOffset + layer.tileCount * Tile.recordLength
    omega

theorem length_slots (layer : TileLayer) : layer.slots.length = layer.tileCount := by
  unfold slots
  rw [List.length_map, List.length_range]

/-- **A layer that was read** has the given id, and its records stand behind its
header. -/
theorem of_readAt (h : readAt data id offset = .ok layer) :
    layer.id = id ∧ layer.recordsOffset = offset + headerLength id := by
  unfold readAt at h
  obtain ⟨width, -, h⟩ := Except.bind_eq_ok.mp h
  obtain ⟨height, -, h⟩ := Except.bind_eq_ok.mp h
  obtain ⟨tileCount, -, h⟩ := Except.bind_eq_ok.mp h
  obtain ⟨records, -, h⟩ := Except.bind_eq_ok.mp h
  rw [← Except.ok.inj h]
  exact ⟨rfl, rfl⟩

/-- The slots of a layer lie between its header and its end. -/
theorem areBetween_of_readAt (h : readAt data id offset = .ok layer) :
    offset ≤ layer.endOffset ∧ TileSlot.AreBetween offset layer.endOffset layer.slots := by
  have hstart : offset ≤ layer.recordsOffset := (of_readAt h).2 ▸ Nat.le_add_right ..
  have hstop : layer.recordsOffset + layer.tileCount * Tile.recordLength ≤ layer.endOffset :=
    Nat.le_add_right ..
  exact ⟨hstart.trans ((Nat.le_add_right ..).trans hstop),
    layer.areBetween_slots.mono hstart hstop⟩

theorem areBetween_of_readOptional {ids : List UInt8} {layers : List TileLayer} {stop : Nat}
    (h : readOptional data ids offset = .ok (layers, stop)) :
    offset ≤ stop ∧ TileSlot.AreBetween offset stop (layers.flatMap slots) := by
  induction ids generalizing offset layers with
  | nil =>
    rw [readOptional, Except.ok.injEq, Prod.mk.injEq] at h
    obtain ⟨rfl, rfl⟩ := h
    exact ⟨le_rfl, .nil ..⟩
  | cons id rest ih =>
    rw [readOptional] at h
    obtain ⟨present, -, h⟩ := Except.bind_eq_ok.mp h
    split_ifs at h
    · obtain ⟨hle, hslots⟩ := ih h
      exact ⟨(Nat.le_succ offset).trans hle, hslots.mono (Nat.le_succ offset) le_rfl⟩
    · obtain ⟨layer, hlayer, h⟩ := Except.bind_eq_ok.mp h
      obtain ⟨⟨others, last⟩, hothers, h⟩ := Except.bind_eq_ok.mp h
      obtain ⟨rfl, rfl⟩ := Prod.mk.inj (Except.ok.inj h)
      obtain ⟨hfirst, hslots⟩ := areBetween_of_readAt hlayer
      obtain ⟨hrest, hbehind⟩ := ih hothers
      refine ⟨(Nat.le_succ offset).trans (hfirst.trans hrest), ?_⟩
      rw [List.flatMap_cons]
      exact (hslots.append hbehind hfirst hrest).mono (Nat.le_succ offset) le_rfl

theorem areBetween_of_readAll {layers : List TileLayer} {stop : Nat}
    (h : readAll data offset = .ok (layers, stop)) :
    offset ≤ stop ∧ TileSlot.AreBetween offset stop (layers.flatMap slots) := by
  unfold readAll at h
  obtain ⟨first, hfirst, h⟩ := Except.bind_eq_ok.mp h
  obtain ⟨⟨others, last⟩, hothers, h⟩ := Except.bind_eq_ok.mp h
  obtain ⟨rfl, rfl⟩ := Prod.mk.inj (Except.ok.inj h)
  obtain ⟨hle, hslots⟩ := areBetween_of_readAt hfirst
  obtain ⟨hrest, hbehind⟩ := areBetween_of_readOptional hothers
  rw [List.flatMap_cons]
  exact ⟨hle.trans hrest, hslots.append hbehind hle hrest⟩

end TileLayer

namespace TileLayout

/-- **A layout that fits a section** of a size. -/
structure Fits (layout : TileLayout) (size : Nat) : Prop where
  areBetween : TileSlot.AreBetween (markerOffset + marker.length) layout.endOffset layout.slots
  endOffset_le : layout.endOffset ≤ size
  length_le : layout.slots.length ≤ maxSlots

theorem length_slots (layout : TileLayout) : layout.slots.length = layout.slotCount := by
  unfold slots slotCount
  rw [List.length_flatMap]
  exact congrArg List.sum (List.map_congr_left (fun layer _ => layer.length_slots))

/-- **A layout fits the section** that it was read from. -/
theorem fits_of_read {data : Bytes} {layout : TileLayout} (h : read data = .ok layout) :
    layout.Fits data.size := by
  unfold read at h
  obtain ⟨flags, -, h⟩ := Except.bind_eq_ok.mp h
  obtain ⟨mark, -, h⟩ := Except.bind_eq_ok.mp h
  split_ifs at h
  obtain ⟨⟨layers, stop⟩, hlayers, h⟩ := Except.bind_eq_ok.mp h
  dsimp only at h
  split_ifs at h with hsize hcount
  rw [← Except.ok.inj h]
  refine ⟨(TileLayer.areBetween_of_readAll hlayers).2, Nat.not_lt.mp hsize, ?_⟩
  rw [length_slots]
  exact Nat.not_lt.mp hcount

/-- Two slots of a layout do not overlap. -/
theorem Fits.apart {layout : TileLayout} {size : Nat} (h : layout.Fits size) {i j : Nat}
    {a b : TileSlot} (hi : layout.slots[i]? = some a) (hj : layout.slots[j]? = some b)
    (hne : i ≠ j) :
    a.offset + Tile.recordLength ≤ b.offset ∨ b.offset + Tile.recordLength ≤ a.offset := by
  obtain ⟨hilt, rfl⟩ := List.getElem?_eq_some_iff.mp hi
  obtain ⟨hjlt, rfl⟩ := List.getElem?_eq_some_iff.mp hj
  have hapart := List.pairwise_iff_getElem.mp h.areBetween.apart
  rcases Nat.lt_or_gt_of_ne hne with hlt | hlt
  · exact .inl (hapart i j hilt hjlt hlt)
  · exact .inr (hapart j i hjlt hilt hlt)

/-- The record of a slot lies inside the section. -/
theorem Fits.le_size {layout : TileLayout} {size : Nat} (h : layout.Fits size) {i : Nat}
    {slot : TileSlot} (hi : layout.slots[i]? = some slot) :
    slot.offset + Tile.recordLength ≤ size :=
  (h.areBetween.le_stop slot (List.mem_of_getElem? hi)).trans h.endOffset_le

/-- The number of a slot is the number of a tile, and not that of a pending one. -/
theorem Fits.lt_maxSlots {layout : TileLayout} {size : Nat} (h : layout.Fits size) {i : Nat}
    {slot : TileSlot} (hi : layout.slots[i]? = some slot) : i < maxSlots :=
  (List.getElem?_eq_some_iff.mp hi).1.trans_le h.length_le

/-- So it is kept in the sixteen bits of that number. -/
theorem Fits.toNat_ofNat {layout : TileLayout} {size : Nat} (h : layout.Fits size) {i : Nat}
    {slot : TileSlot} (hi : layout.slots[i]? = some slot) : (UInt16.ofNat i).toNat = i := by
  rw [UInt16.toNat_ofNat']
  exact Nat.mod_eq_of_lt ((h.lt_maxSlots hi).trans (by decide))

end TileLayout

end FieldMap
