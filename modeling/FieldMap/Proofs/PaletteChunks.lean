import FieldMap.Background.Palette
import FieldMap.Proofs.Placement
import Mathlib.Tactic.ByContra
import Mathlib.Tactic.SplitIfs

/-!
# Palettes by their numbers

A reader of palettes cuts the bytes of all colors into chunks, one for each palette, cuts
each chunk into words, and pairs the chunks with the flags as they come. A list that is
given by its positions is cut into chunks that are given by theirs (`chunksExact_map_range`),
so that the colors and the flag of each palette have their places in the two sections
(`readAt`, `ofChunks_of_pos`).

The number of chunks is that of the bytes, divided by the length of a chunk. If a palette
has colors, then it is the number of palettes. If it has none, there is nothing to cut, and
no chunk for a flag to be paired with (`ofChunks_of_width_zero`). Either way the palettes
are read if there is room for all of them and for their flags (`readAll_eq_ok`).
-/

namespace FieldMap.Palette

variable {background paletteData : Bytes} {width count : Nat}

/-! ## Chunks by position -/

/-- The induction is on the number of pieces: behind the first of them stands a list that
is given by its positions as well. -/
theorem pieces_map_range {α : Type} (size count : Nat) (f : Nat → α) :
    pieces size count ((List.range (size * count)).map f)
      = (List.range count).map fun i => (List.range size).map fun j => f (size * i + j) := by
  induction count generalizing f with
  | zero => rfl
  | succ count ih =>
    have hfirst : ((List.range size).map f).length = size := by
      rw [List.length_map, List.length_range]
    have htotal : size * (count + 1) = size + size * count := by rw [Nat.mul_succ, Nat.add_comm]
    rw [htotal, List.range_add, List.map_append, List.map_map, pieces,
      List.take_left' hfirst, List.drop_left' hfirst, ih, List.range_succ_eq_map, List.map_cons,
      List.map_map]
    simp only [Function.comp_def, Nat.mul_zero, Nat.zero_add, Nat.mul_succ, Nat.add_assoc,
      Nat.add_left_comm size]

/-- **Chunks of a list that they fill** are all of it, each at the multiple of its
length. -/
theorem chunksExact_map_range {α : Type} {size : Nat} (hsize : 0 < size) (count : Nat)
    (f : Nat → α) :
    chunksExact size ((List.range (size * count)).map f)
      = (List.range count).map fun i => (List.range size).map fun j => f (size * i + j) := by
  rw [chunksExact, List.length_map, List.length_range, Nat.mul_div_cancel_left count hsize,
    pieces_map_range]

/-! ## A palette at its place -/

/-- **The palette with a number**, if each has as many colors: its colors stand behind
those of the palettes in front of it, and its flag behind theirs. -/
def readAt (background paletteData : Bytes) (width index : Nat) : Palette where
  colors := (List.range width).map fun i =>
    paletteData.wordAt (colorsOffset + 2 * (index * width + i))
  flag := background.byteAt (flagsOffset + index)

theorem ofChunk_eq_readAt (index : Nat) :
    ofChunk ((List.range (width * 2)).map fun j =>
        paletteData.byteAt (colorsOffset + (width * 2 * index + j)))
        (background.byteAt (flagsOffset + index))
      = readAt background paletteData width index := by
  unfold ofChunk readAt
  rw [Palette.mk.injEq, Nat.mul_comm width 2, chunksExact_map_range (by decide), List.map_map]
  refine ⟨List.map_congr_left fun i _ => ?_, rfl⟩
  have hplace : ∀ j, colorsOffset + (2 * width * index + (2 * i + j))
      = colorsOffset + 2 * (index * width + i) + j := fun j => by
    rw [Nat.mul_assoc, Nat.mul_comm width, Nat.mul_add]
    omega
  simp only [Function.comp_apply, hplace]
  rfl

/-- **Chunks with colors** are the palettes at their places. -/
theorem ofChunks_of_pos (hwidth : 0 < width) :
    ofChunks width count
        ((List.range (count * width * 2)).map fun i => paletteData.byteAt (colorsOffset + i))
        ((List.range count).map fun i => background.byteAt (flagsOffset + i))
      = (List.range count).map (readAt background paletteData width) := by
  have hsize : max (width * 2) 1 = width * 2 := by omega
  have hlength : count * width * 2 = width * 2 * count := by
    rw [Nat.mul_assoc, Nat.mul_comm]
  unfold ofChunks
  rw [hsize, hlength, chunksExact_map_range (by omega), List.take_of_length_le (by simp),
    List.zip_map', List.map_map]
  exact List.map_congr_left fun index _ => ofChunk_eq_readAt index

/-- **Without colors there are no chunks**, and so no palettes. -/
theorem ofChunks_of_width_zero (flags : List UInt8) : ofChunks 0 count [] flags = [] := by
  rw [ofChunks, chunksExact, List.length_nil, Nat.zero_div, pieces, List.take_nil, List.zip_nil_left,
    List.map_nil]

/-- **The chunks of a part of a section** that has room for all colors, with as many
flags. -/
theorem ofChunks_extract (hflags : flagsOffset + count ≤ background.size)
    (hcolors : colorsOffset + count * width * 2 ≤ paletteData.size) :
    ofChunks width count
        (paletteData.extract colorsOffset (colorsOffset + count * width * 2)).toList
        (background.extract flagsOffset (flagsOffset + count)).toList
      = if width = 0 then [] else (List.range count).map (readAt background paletteData width) := by
  rw [Bytes.toList_extract hflags, Bytes.toList_extract hcolors]
  split_ifs with hwidth
  · rw [hwidth, Nat.mul_zero, Nat.zero_mul, List.range_zero, List.map_nil, ofChunks_of_width_zero]
  · exact ofChunks_of_pos (Nat.pos_of_ne_zero hwidth)

/-! ## What is read -/

/-- **What is read as palettes**, if there is room for all of them and for their flags:
the palettes at their places, or nothing if they have no colors. -/
theorem readAll_eq_ok {palettes : List Palette} :
    readAll background paletteData = .ok palettes
      ↔ ((paletteData.wordAt 10).toNat ≤ 24
          ∧ 12 + (paletteData.wordAt 10).toNat ≤ background.size
          ∧ 12 + (paletteData.wordAt 10).toNat * (paletteData.wordAt 8).toNat * 2
            ≤ paletteData.size)
        ∧ (if (paletteData.wordAt 8).toNat = 0 then []
            else (List.range (paletteData.wordAt 10).toNat).map
              (readAt background paletteData (paletteData.wordAt 8).toNat)) = palettes := by
  unfold readAll
  constructor
  · intro h
    obtain ⟨-, -, h⟩ := Except.bind_eq_ok.mp h
    obtain ⟨width, hwidth, h⟩ := Except.bind_eq_ok.mp h
    obtain ⟨count, hcount, h⟩ := Except.bind_eq_ok.mp h
    obtain ⟨-, rfl⟩ := Bytes.readWord_eq_ok.mp hwidth
    obtain ⟨-, rfl⟩ := Bytes.readWord_eq_ok.mp hcount
    by_cases hmany : maxCount < (paletteData.wordAt 10).toNat
    · rw [if_pos hmany] at h
      exact nomatch h
    · rw [if_neg hmany] at h
      obtain ⟨_, hflagsRead, h⟩ := Except.bind_eq_ok.mp h
      obtain ⟨_, hcolorsRead, h⟩ := Except.bind_eq_ok.mp h
      obtain ⟨hflags, rfl⟩ := Bytes.slice_eq_ok.mp hflagsRead
      obtain ⟨hcolors, rfl⟩ := Bytes.slice_eq_ok.mp hcolorsRead
      refine ⟨⟨Nat.not_lt.mp hmany, hflags, hcolors⟩, ?_⟩
      exact (ofChunks_extract hflags hcolors).symm.trans (Except.ok.inj h)
  · rintro ⟨⟨hfew, hflags, hcolors⟩, rfl⟩
    have hopening : 0 + 4 ≤ paletteData.size := by omega
    obtain ⟨size, hsize⟩ := Bytes.exists_readNumber_eq_ok .paletteSize hopening
    have hwidth : paletteData.readWord .paletteWidth 8 = .ok (paletteData.wordAt 8).toNat :=
      Bytes.readWord_eq_ok.mpr ⟨by omega, rfl⟩
    have hcount : paletteData.readWord .paletteCount 10 = .ok (paletteData.wordAt 10).toNat :=
      Bytes.readWord_eq_ok.mpr ⟨by omega, rfl⟩
    rw [Bytes.readLong, hsize, Except.ok_bind, hwidth, Except.ok_bind, hcount, Except.ok_bind,
      if_neg (show ¬maxCount < _ from Nat.not_lt.mpr hfew), ← ofChunks_extract hflags hcolors]
    refine Except.bind_eq_ok.mpr ⟨_, Bytes.slice_eq_ok.mpr ⟨hflags, rfl⟩, ?_⟩
    exact Except.bind_eq_ok.mpr ⟨_, Bytes.slice_eq_ok.mpr ⟨hcolors, rfl⟩, rfl⟩

end FieldMap.Palette
