import FieldMap.Background.Store
import Mathlib.Tactic.SplitIfs

/-!
# Reading and writing the records of tiles

A record has room for more than a tile says. What a tile determines are the bytes
at `Tile.fieldOffsets`, each of them once, and writing a tile changes these bytes
and no others. Two facts follow, and they are all that the store of tiles needs to
know about bytes: a tile that was written is read back (`readAt_writeAt`), and
whatever lies outside of its record is read as before (`readAt_congr`,
`TileSlot.isFree_congr`).
-/

namespace FieldMap

namespace Bytes

variable {data : Bytes} {i j : Nat}

theorem byteAt_setIfInBounds_self (h : i < data.size) (b : UInt8) :
    byteAt (data.setIfInBounds i b) i = b := by
  unfold byteAt
  rw [Array.getD_eq_getD_getElem?, Array.getElem?_setIfInBounds_self_of_lt h, Option.getD_some]

theorem byteAt_setIfInBounds_of_ne (h : i ≠ j) (b : UInt8) :
    byteAt (data.setIfInBounds i b) j = data.byteAt j := by
  unfold byteAt
  rw [Array.getD_eq_getD_getElem?, Array.getElem?_setIfInBounds_ne h,
    ← Array.getD_eq_getD_getElem?]

/-- **A word is its two bytes.** -/
theorem wordAt_eq {value : UInt16} (hlow : data.byteAt i = value.toUInt8)
    (hhigh : data.byteAt (i + 1) = (value >>> 8).toUInt8) : data.wordAt i = value := by
  unfold wordAt
  rw [hlow, hhigh]
  have hlt := value.toNat_lt
  apply UInt16.toNat_inj.mp
  have hshift : (8 : UInt16).toNat % 16 = 8 := rfl
  simp only [ofLittleEndian, UInt16.toNat_ofNat', UInt16.toNat_toUInt8, UInt16.toNat_shiftRight,
    Nat.shiftRight_eq_div_pow, hshift]
  omega

theorem wordAt_congr {data' : Bytes} (hlow : data'.byteAt j = data.byteAt i)
    (hhigh : data'.byteAt (j + 1) = data.byteAt (i + 1)) : data'.wordAt j = data.wordAt i := by
  unfold wordAt
  rw [hlow, hhigh]

end Bytes

namespace Tile

variable {data : Bytes} {offset : Nat}

/-! ## Single bytes -/

@[simp] theorem size_overwrite (data : Bytes) (base : Nat) (bytes : List (Nat × UInt8)) :
    (overwrite data base bytes).size = data.size := by
  unfold overwrite
  induction bytes generalizing data with
  | nil => rfl
  | cons entry rest ih => rw [List.foldl_cons, ih, Array.size_setIfInBounds]

theorem overwrite_cons (data : Bytes) (base : Nat) (entry : Nat × UInt8)
    (rest : List (Nat × UInt8)) :
    overwrite data base (entry :: rest)
      = overwrite (data.setIfInBounds (base + entry.1) entry.2) base rest := List.foldl_cons ..

/-- **No other byte is changed.** -/
theorem byteAt_overwrite_of_not_mem {base i : Nat} {bytes : List (Nat × UInt8)}
    (h : ∀ entry ∈ bytes, base + entry.1 ≠ i) :
    (overwrite data base bytes).byteAt i = data.byteAt i := by
  induction bytes generalizing data with
  | nil => rfl
  | cons entry rest ih =>
    obtain ⟨hentry, hrest⟩ := List.forall_mem_cons.mp h
    rw [overwrite_cons, ih hrest, Bytes.byteAt_setIfInBounds_of_ne hentry]

/-- **A byte that is written is read back**, if no byte is written twice. -/
theorem byteAt_overwrite {base : Nat} {bytes : List (Nat × UInt8)}
    (hnodup : (bytes.map Prod.fst).Nodup) {o : Nat} {b : UInt8} (hmem : (o, b) ∈ bytes)
    (hfits : base + o < data.size) : (overwrite data base bytes).byteAt (base + o) = b := by
  induction bytes generalizing data with
  | nil => exact absurd hmem List.not_mem_nil
  | cons first rest ih =>
    rw [List.map_cons, List.nodup_cons] at hnodup
    rw [overwrite_cons]
    rcases List.mem_cons.mp hmem with rfl | hrest
    · have hfresh : ∀ other ∈ rest, base + other.1 ≠ base + o := fun other hother heq => by
        have hagain := List.mem_map_of_mem (f := Prod.fst) hother
        rw [Nat.add_left_cancel heq] at hagain
        exact hnodup.1 hagain
      rw [byteAt_overwrite_of_not_mem hfresh, Bytes.byteAt_setIfInBounds_self hfits]
    · exact ih hnodup.2 hrest (by rwa [Array.size_setIfInBounds])

/-- A byte that is not among those replaced can be replaced before them or after. -/
theorem overwrite_setIfInBounds {base i : Nat} {bytes : List (Nat × UInt8)}
    (h : ∀ entry ∈ bytes, base + entry.1 ≠ i) (b : UInt8) :
    overwrite (data.setIfInBounds i b) base bytes
      = (overwrite data base bytes).setIfInBounds i b := by
  induction bytes generalizing data with
  | nil => rfl
  | cons entry rest ih =>
    obtain ⟨hentry, hrest⟩ := List.forall_mem_cons.mp h
    rw [overwrite_cons, overwrite_cons, ← Array.setIfInBounds_comm _ _ hentry, ih hrest]

/-- **Bytes at different places** can be replaced in either order. -/
theorem overwrite_comm {base base' : Nat} {as bs : List (Nat × UInt8)}
    (h : ∀ a ∈ as, ∀ b ∈ bs, base + a.1 ≠ base' + b.1) :
    overwrite (overwrite data base as) base' bs = overwrite (overwrite data base' bs) base as := by
  induction as generalizing data with
  | nil => rfl
  | cons a rest ih =>
    obtain ⟨ha, hrest⟩ := List.forall_mem_cons.mp h
    rw [overwrite_cons, overwrite_cons, ih hrest,
      overwrite_setIfInBounds fun b hb => (ha b hb).symm]

/-! ## The bytes of a tile -/

/-- **The bytes of a record that a tile determines.** -/
def fieldOffsets : List Nat :=
  [0, 1, 2, 3, 8, 10, 12, 14, 16, 17, 18, 19, 20, 22, 23, 24, 25, 26, 28, 30, 32, 34]

theorem map_fst_fields (tile : Tile) : tile.fields.map Prod.fst = fieldOffsets := rfl

theorem nodup_fieldOffsets : fieldOffsets.Nodup := by decide

theorem lt_recordLength_of_mem : ∀ o ∈ fieldOffsets, o < recordLength := by decide

@[simp] theorem size_writeAt (tile : Tile) (data : Bytes) (offset : Nat) :
    (tile.writeAt data offset).size = data.size := size_overwrite ..

theorem mem_fieldOffsets {tile : Tile} {o : Nat} {b : UInt8} (h : (o, b) ∈ tile.fields) :
    o ∈ fieldOffsets := by
  rw [← map_fst_fields tile]
  exact List.mem_map_of_mem (f := Prod.fst) h

/-- **Writing a tile changes the bytes that it determines**, and no others. -/
theorem byteAt_writeAt_of_ne (tile : Tile) {i : Nat} (h : ∀ o ∈ fieldOffsets, offset + o ≠ i) :
    (tile.writeAt data offset).byteAt i = data.byteAt i :=
  byteAt_overwrite_of_not_mem fun entry hmem => h entry.1 (mem_fieldOffsets hmem)

/-- Bytes outside of a record stay as they are. -/
theorem byteAt_writeAt_of_outside (tile : Tile) {i : Nat}
    (h : i < offset ∨ offset + recordLength ≤ i) :
    (tile.writeAt data offset).byteAt i = data.byteAt i := by
  refine byteAt_writeAt_of_ne tile (fun o ho => ?_)
  have hlt := lt_recordLength_of_mem o ho
  omega

theorem byteAt_writeAt {tile : Tile} (hfits : offset + recordLength ≤ data.size) {o : Nat}
    {b : UInt8} (hmem : (o, b) ∈ tile.fields) :
    (tile.writeAt data offset).byteAt (offset + o) = b := by
  have hlt := lt_recordLength_of_mem o (mem_fieldOffsets hmem)
  have hnodup : (tile.fields.map Prod.fst).Nodup := by
    rw [map_fst_fields]
    exact nodup_fieldOffsets
  exact byteAt_overwrite hnodup hmem (by omega)

theorem wordAt_writeAt {tile : Tile} (hfits : offset + recordLength ≤ data.size) {o : Nat}
    {v : UInt16} (hmem : word o v ⊆ tile.fields) :
    (tile.writeAt data offset).wordAt (offset + o) = v := by
  have hlow : (o, v.toUInt8) ∈ tile.fields := hmem List.mem_cons_self
  have hhigh : (o + 1, (v >>> 8).toUInt8) ∈ tile.fields :=
    hmem (List.mem_cons_of_mem _ List.mem_cons_self)
  have hread := byteAt_writeAt hfits hhigh
  rw [← Nat.add_assoc] at hread
  exact Bytes.wordAt_eq (byteAt_writeAt hfits hlow) hread

/-- **A tile that was written is read back.** -/
theorem readAt_writeAt (tile : Tile) (hfits : offset + recordLength ≤ data.size) (id : UInt16)
    (layer : UInt8) :
    readAt (tile.writeAt data offset) offset id layer = { tile with id := id, layer := layer } := by
  have hword : ∀ {o v}, word o v ⊆ tile.fields →
      (tile.writeAt data offset).wordAt (offset + o) = v := wordAt_writeAt hfits
  have hbyte : ∀ {o b}, (o, b) ∈ tile.fields →
      (tile.writeAt data offset).byteAt (offset + o) = b := byteAt_writeAt hfits
  have hfirst : (tile.writeAt data offset).wordAt offset = tile.dstX.toUInt16 :=
    hword (o := 0) (by simp [fields, word])
  unfold readAt
  rw [Tile.mk.injEq]
  refine ⟨rfl, rfl, ?read_dstX, ?read_dstY, ?_, ?_, ?_, ?_, ?read_width, ?read_height, ?_, ?read_z,
    ?_, ?_, ?read_blending, ?_, ?_, ?_, ?_⟩
  case read_dstX => rw [hfirst, Int16.toInt16_toUInt16]
  case read_dstY =>
    rw [hword (v := tile.dstY.toUInt16) (by simp [fields, word]), Int16.toInt16_toUInt16]
  case read_width => exact hword (by simp [fields, word])
  case read_height => exact hword (by simp [fields, word])
  case read_z => exact hword (by simp [fields, word])
  case read_blending =>
    rw [hbyte (b := if tile.blending then 1 else 0) (by simp [fields])]
    cases tile.blending <;> rfl
  -- all others are single bytes
  all_goals exact hbyte (by simp [fields])

/-- **Tiles in records that do not overlap** can be written in either order. -/
theorem writeAt_comm (tile other : Tile) {offset' : Nat}
    (h : offset + recordLength ≤ offset' ∨ offset' + recordLength ≤ offset) :
    other.writeAt (tile.writeAt data offset) offset'
      = tile.writeAt (other.writeAt data offset') offset := by
  refine overwrite_comm fun a ha b hb => ?_
  have halt := lt_recordLength_of_mem a.1 (mem_fieldOffsets ha)
  have hblt := lt_recordLength_of_mem b.1 (mem_fieldOffsets hb)
  omega

/-! ## Records elsewhere -/

section Elsewhere

variable {data' : Bytes} {offset' : Nat}
  (h : ∀ o < recordLength, data'.byteAt (offset' + o) = data.byteAt (offset + o))

include h

theorem wordAt_of_agree {o : Nat} (ho : o + 1 < recordLength) :
    data'.wordAt (offset' + o) = data.wordAt (offset + o) :=
  Bytes.wordAt_congr (h o (Nat.lt_of_succ_lt ho)) (h (o + 1) ho)

/-- **A tile depends on the bytes of its record** only, wherever that stands. -/
theorem readAt_congr (id : UInt16) (layer : UInt8) :
    readAt data' offset' id layer = readAt data offset id layer := by
  have hword : ∀ o, o + 1 < recordLength → data'.wordAt (offset' + o) = data.wordAt (offset + o) :=
    fun _ => wordAt_of_agree h
  have hfirst : data'.wordAt offset' = data.wordAt offset := hword 0 (by decide)
  unfold readAt
  simp (disch := decide) only [hfirst, hword, h]

end Elsewhere

end Tile

namespace TileSlot

open Tile

variable {data data' : Bytes} {slot slot' : TileSlot}

/-- Whether a slot is free depends on the bytes of its record only. -/
theorem isFree_congr (h : ∀ o < recordLength,
    data'.byteAt (slot'.offset + o) = data.byteAt (slot.offset + o)) :
    slot'.isFree data' = slot.isFree data := by
  unfold isFree
  rw [wordAt_of_agree h (by decide)]

/-- **A slot that a tile was written to** is free if the tile says so. -/
theorem isFree_writeAt (tile : Tile) (hfits : slot.offset + recordLength ≤ data.size) :
    slot.isFree (tile.writeAt data slot.offset) = (tile.z == pending) := by
  unfold isFree
  rw [wordAt_writeAt hfits (v := tile.z) (by simp [fields, word])]

end TileSlot

end FieldMap
