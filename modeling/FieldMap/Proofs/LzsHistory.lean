import FieldMap.Proofs.Placement
import FieldMap.Lzs
import Mathlib.Data.Int.ModEq
import Mathlib.Data.List.GetD
import Mathlib.Tactic.SplitIfs

/-!
# The window is the history of the output

A payload can be read without any window. It is a sequence of items (`items`), and an
item either is a byte or asks for bytes of the output so far, which are found by
counting back from its end (`replay`). The count is at most 4096, and bytes in front
of the output are zero.

That decompression does the same rests on one fact about the window: at every place
of the ring stands the byte of the output at the distance that belongs to this place
(`Window.Mirrors`). A byte that is put out keeps this true. At the cursor it replaces
the byte at distance 4096, which no reference can reach any more, and all other
distances grow by one. While a reference is copied, place and output move on
together, so that its distance stays the same to the end.
-/

namespace FieldMap.Lzs

/-! ## Reading a payload without a window -/

/-- **An item of a payload.** -/
inductive PayloadItem where
  | literal (b : UInt8)
  /-- A reference back, by its two bytes. -/
  | reference (low high : UInt8)
deriving DecidableEq

/-- The flags of the next items of a group, the lowest first. -/
def nextFlags (flags : Nat) (count : Nat) : List Bool := (List.range count).map flags.testBit

/-- The items of a payload behind the given flags. They end at the first byte of flags
or item that is not complete. -/
def itemsFrom : List Bool → List UInt8 → List PayloadItem
  | _, [] => []
  | [], flags :: rest => itemsFrom (nextFlags flags.toNat 8) rest
  | true :: more, b :: rest => .literal b :: itemsFrom more rest
  | false :: _, [_] => []
  | false :: more, low :: high :: rest => .reference low high :: itemsFrom more rest

/-- **The items of a payload**, in groups of eight behind a byte of flags. -/
def items (payload : List UInt8) : List PayloadItem := itemsFrom [] payload

/-- **The distance of a place of the window** from the end of an output of a length:
the number from 1 to 4096 that has the right remainder. -/
def distance (place length : Nat) : Nat := (((length : ℤ) + 0xFEE - place - 1) % 4096).toNat + 1

/-- The byte of an output at a distance from its end, and zero in front of it. -/
def byteBack (out : List UInt8) (distance : Nat) : UInt8 :=
  if out.length < distance then 0 else out.getD (out.length - distance) 0

/-- Repeats bytes of the output, one at a time, so that bytes that have just been put
out may be repeated as well. -/
def copyBack (distance : Nat) : Nat → List UInt8 → List UInt8
  | 0, out => out
  | count + 1, out => copyBack distance count (out ++ [byteBack out distance])

/-- The output after an item. -/
def PayloadItem.replay (out : List UInt8) : PayloadItem → List UInt8
  | literal b => out ++ [b]
  | reference low high =>
    copyBack (distance (low.toNat + 256 * (high.toNat / 16)) out.length) (high.toNat % 16 + 3) out

/-- **The output of a sequence of items**, behind what was put out before. -/
def replay (out : List UInt8) (items : List PayloadItem) : List UInt8 :=
  items.foldl PayloadItem.replay out

/-! ## Distances -/

/-- **A distance is determined by its remainder.** -/
theorem eq_distance_iff {place length d : Nat} :
    d = distance place length ↔ 1 ≤ d ∧ d ≤ 4096 ∧ (d : ℤ) ≡ length + 0xFEE - place [ZMOD 4096] := by
  unfold distance Int.ModEq
  omega

/-- The place of the cursor is as far away as can be. -/
theorem distance_cursor (length : Nat) : distance ((0xFEE + length) % 4096) (length + 1) = 1 := by
  unfold distance
  omega

/-- With a byte that is put out, all distances but that of the cursor grow. -/
theorem distance_succ {place length : Nat} (hplace : place < 4096)
    (h : place ≠ (0xFEE + length) % 4096) :
    distance place (length + 1) = distance place length + 1 := by
  unfold distance
  omega

/-- The distance stays if the place moves on with the output. -/
theorem distance_succ_succ (place length : Nat) :
    distance ((place + 1) % 4096) (length + 1) = distance place length := by
  unfold distance
  omega

theorem byteBack_of_lt {out : List UInt8} {d : Nat} (h : out.length < d) : byteBack out d = 0 :=
  if_pos h

theorem byteBack_append_one (out : List UInt8) (b : UInt8) : byteBack (out ++ [b]) 1 = b := by
  unfold byteBack
  rw [List.length_append, List.length_singleton, if_neg (by omega), Nat.add_sub_cancel,
    List.getD_append_right _ _ _ _ le_rfl, Nat.sub_self]
  rfl

theorem byteBack_append_succ (out : List UInt8) (b : UInt8) {d : Nat} (hd : 1 ≤ d) :
    byteBack (out ++ [b]) (d + 1) = byteBack out d := by
  have hlength : (out ++ [b]).length = out.length + 1 := List.length_append
  by_cases h : out.length < d
  · rw [byteBack_of_lt h, byteBack_of_lt (by omega)]
  · unfold byteBack
    rw [if_neg h, if_neg (by omega), hlength, Nat.add_sub_add_right,
      List.getD_append _ _ _ _ (by omega)]

/-! ## What the window holds -/

/-- **A window that mirrors an output**: it has put out these bytes, its cursor has moved
on with them, and at each place stands the byte at the distance of this place. -/
structure Window.Mirrors (window : Window) (out : List UInt8) : Prop where
  out_eq : window.out.toList = out
  cursor_eq : window.cursor.val = (0xFEE + out.length) % 4096
  ring_eq : ∀ place : Fin 4096, window.ring[place] = byteBack out (distance place out.length)

namespace Window.Mirrors

variable {window : Window} {out : List UInt8}

theorem empty : Window.empty.Mirrors [] where
  out_eq := rfl
  cursor_eq := rfl
  ring_eq place := by
    rw [byteBack_of_lt (Nat.succ_pos _)]
    exact Vector.getElem_replicate _

/-- **A byte that is put out** is mirrored. -/
theorem push (h : window.Mirrors out) (b : UInt8) : (window.push b).Mirrors (out ++ [b]) := by
  obtain ⟨ring, cursor, bytes⟩ := window
  obtain ⟨hout, hcursor, hring⟩ := h
  dsimp only at hout hcursor hring
  have hlength : (out ++ [b]).length = out.length + 1 := List.length_append
  refine ⟨?_, ?_, fun place => ?_⟩
  · show (bytes.push b).toList = out ++ [b]
    rw [Array.toList_push, hout]
  · show (cursor + 1).val = _
    rw [Fin.val_add, hcursor, hlength]
    show ((0xFEE + out.length) % 4096 + 1) % 4096 = _
    omega
  · show (ring.set cursor b)[place.val] = _
    rw [hlength, Vector.getElem_set]
    split_ifs with hplace
    · rw [← hplace, hcursor, distance_cursor, byteBack_append_one]
    · rw [hcursor] at hplace
      have hpos : 1 ≤ distance place out.length := Nat.le_add_left ..
      rw [distance_succ place.isLt (Ne.symm hplace), byteBack_append_succ out b hpos]
      exact hring place

/-- **A reference that is copied** repeats the bytes at one distance. -/
theorem copy (h : window.Mirrors out) (place : Fin 4096) (count : Nat) :
    (window.copy place count).Mirrors (copyBack (distance place out.length) count out) := by
  induction count generalizing window place out with
  | zero => exact h
  | succ count ih =>
    have hlength : ∀ b, (out ++ [b]).length = out.length + 1 := fun _ => List.length_append
    have hnext := ih (h.push window.ring[place]) (place + 1)
    rw [hlength, Fin.val_add] at hnext
    rw [Window.copy, copyBack, ← h.ring_eq place, ← distance_succ_succ]
    exact hnext

end Window.Mirrors

/-! ## What is read from a payload -/

theorem nextFlags_succ (flags count : Nat) :
    nextFlags flags (count + 1) = (flags % 2 = 1 : Bool) :: nextFlags (flags / 2) count := by
  unfold nextFlags
  rw [List.range_succ_eq_map, List.map_cons, List.map_map, Nat.testBit_zero]
  exact congrArg _ (List.map_congr_left fun i _ => Nat.testBit_succ flags i)

theorem val_referencePlace (low high : UInt8) :
    (referencePlace low high).val = low.toNat + 256 * (high.toNat / 16) := by
  have hlow := low.toNat_lt
  have hhigh := high.toNat_lt
  exact Nat.mod_eq_of_lt (by omega)

/-- **Reading a payload** into a window that mirrors an output replays the items behind
this output. The cases are those of the reader: the payload is at its end, a group
begins, an item is a byte, a reference is not complete, or it is. -/
theorem mirrors_unpackFrom {window : Window} {out : List UInt8} (h : window.Mirrors out)
    (flags left : Nat) (stream : List UInt8) :
    (unpackFrom window flags left stream).Mirrors
      (replay out (itemsFrom (nextFlags flags left) stream)) := by
  fun_induction unpackFrom window flags left stream generalizing out with
  | case1 window flags left => rwa [itemsFrom]
  | case2 window flags b rest ih => exact ih h
  | case3 window flags left b rest hflag ih =>
    rw [nextFlags_succ, decide_eq_true hflag, itemsFrom]
    exact ih (h.push b)
  | case4 window flags left b hflag =>
    rw [nextFlags_succ, decide_eq_false hflag, itemsFrom]
    exact h
  | case5 window flags left low hflag high rest ih =>
    have hcopied := h.copy (referencePlace low high) (referenceLength high)
    rw [val_referencePlace] at hcopied
    rw [nextFlags_succ, decide_eq_false hflag, itemsFrom]
    exact ih hcopied

/-- What a payload that is not empty unpacks to. -/
theorem decompressPayload_of_ne_nil {payload : List UInt8} (h : payload ≠ []) :
    decompressPayload payload = .ok (replay [] (items payload)).toArray := by
  have hmirrors := mirrors_unpackFrom Window.Mirrors.empty 0 0 payload
  have hout : (unpackFrom Window.empty 0 0 payload).out = (replay [] (items payload)).toArray :=
    Array.toList_inj.mp hmirrors.out_eq
  unfold decompressPayload
  rw [if_neg (fun hempty => h (List.isEmpty_iff.mp hempty)), hout]

/-- **Decompression repeats the history of the output**, and fails on no payload that
has any bytes at all. The distance to which a reference goes back is the one from 1 to
4096 that differs from the length of the output, moved by the first place of the
cursor, by the place in the reference and a multiple of the size of the window. -/
theorem decompressPayload_eq_replay {payload : List UInt8} (h : payload ≠ []) :
    decompressPayload payload = .ok (replay [] (items payload)).toArray
      ∧ ∀ (out : List UInt8) (low high : UInt8) (d : Nat), 1 ≤ d → d ≤ 4096 →
        (d : ℤ) ≡ out.length + 0xFEE - (low.toNat + 256 * (high.toNat / 16) : Nat) [ZMOD 4096] →
        (PayloadItem.reference low high).replay out = copyBack d (high.toNat % 16 + 3) out := by
  refine ⟨decompressPayload_of_ne_nil h, fun out low high d hpos hle hmod => ?_⟩
  rw [eq_distance_iff.mpr ⟨hpos, hle, hmod⟩]
  rfl

/-- A reference that overlaps what it repeats, one that lies in front of the output, and
one that is not complete. -/
theorem decompressPayload_eq_replay_overlap :
    [0x03, 0x61, 0x62, 0xEE, 0xF1, 0x00, 0x00, 0xEE] ≠ ([] : List UInt8)
      ∧ decompressPayload [0x03, 0x61, 0x62, 0xEE, 0xF1, 0x00, 0x00, 0xEE]
        = .ok #[0x61, 0x62, 0x61, 0x62, 0x61, 0x62, 0, 0, 0] := by
  have hne : [0x03, 0x61, 0x62, 0xEE, 0xF1, 0x00, 0x00, 0xEE] ≠ ([] : List UInt8) := by decide
  refine ⟨hne, (decompressPayload_eq_replay hne).1.trans (congrArg Except.ok ?_)⟩
  decide +kernel

/-! ## Payloads behind their length -/

/-- **A length says how much of what follows is the payload.** Bytes behind that are not
looked at, and a length that is too large is refused. -/
theorem decompress_declared {declared : Nat} (hdeclared : declared < 2 ^ 32)
    (present : List UInt8) :
    decompress (toLittleEndian 4 declared ++ present).toArray
      = if present.length < declared then .error (.compression .oversizedHeader)
        else decompressPayload (present.take declared) := by
  have hlength : (toLittleEndian 4 declared).length = 4 := length_toLittleEndian ..
  have hread := (Bytes.HoldsAt.toArray (toLittleEndian 4 declared ++ present)).left.readNumber
    (hdeclared.trans_eq (by decide)) .compressedSize
  have hsize : (toLittleEndian 4 declared ++ present).toArray.size - 4 = present.length := by
    rw [List.size_toArray, List.length_append, hlength, Nat.add_sub_cancel_left]
  have hpayload : ((toLittleEndian 4 declared ++ present).toArray.extract 4 (4 + declared)).toList
      = present.take declared := by
    rw [Array.toList_extract, List.toList_toArray, List.extract_eq_take_drop,
      Nat.add_sub_cancel_left, List.drop_left' hlength]
  unfold decompress
  rw [Bytes.readLong, hread, Except.ok_bind, hsize, hpayload]

/-! ## Payloads without references -/

/-- **A payload of bytes alone**: a byte of flags, all of them set, in front of every eight
bytes and of those that are left. -/
def packLiterals (bytes : List UInt8) : List UInt8 :=
  if bytes = [] then [] else 0xFF :: (bytes.take 8 ++ packLiterals (bytes.drop 8))
termination_by bytes.length
decreasing_by
  rename_i h
  have hpos := List.length_pos_iff.mpr h
  rw [List.length_drop]
  omega

/-- Behind flags that are set stand bytes. -/
theorem itemsFrom_replicate_true (count : Nat) (stream : List UInt8) :
    itemsFrom (List.replicate count true) stream
      = (stream.take count).map .literal ++ items (stream.drop count) := by
  induction count generalizing stream with
  | zero => rfl
  | succ count ih =>
    cases stream with
    | nil => rfl
    | cons b rest =>
      rw [List.replicate_succ, itemsFrom, ih]
      rfl

theorem items_packLiterals (bytes : List UInt8) :
    items (packLiterals bytes) = bytes.map .literal := by
  fun_induction packLiterals bytes with
  | case1 => rfl
  | case2 bytes hne ih =>
    have hflags : nextFlags (0xFF : UInt8).toNat 8 = List.replicate 8 true := by decide
    have hcut : (bytes.take 8 ++ packLiterals (bytes.drop 8)).take 8 = bytes.take 8
        ∧ (bytes.take 8 ++ packLiterals (bytes.drop 8)).drop 8 = packLiterals (bytes.drop 8) := by
      rcases Nat.lt_or_ge bytes.length 8 with hshort | hlong
      · -- the last bytes, behind which nothing follows
        have hrest : packLiterals (bytes.drop 8) = [] := by
          rw [List.drop_of_length_le hshort.le, packLiterals, if_pos rfl]
        rw [hrest, List.append_nil, List.take_take, List.drop_take]
        exact ⟨rfl, rfl⟩
      · have hlength : (bytes.take 8).length = 8 := List.length_take_of_le hlong
        exact ⟨List.take_left' hlength, List.drop_left' hlength⟩
    unfold items
    rw [itemsFrom, hflags, itemsFrom_replicate_true, hcut.1, hcut.2, ih, ← List.map_append,
      List.take_append_drop]

theorem replay_map_literal (out bytes : List UInt8) :
    replay out (bytes.map .literal) = out ++ bytes := by
  induction bytes generalizing out with
  | nil => exact (List.append_nil out).symm
  | cons b rest ih =>
    show replay (out ++ [b]) (rest.map .literal) = out ++ b :: rest
    rw [ih, List.append_assoc, List.singleton_append]

/-- **Bytes that are packed one by one** are unpacked again. -/
theorem decompress_packLiterals {bytes : List UInt8} (hne : bytes ≠ [])
    (hlength : (packLiterals bytes).length < 2 ^ 32) :
    decompress (toLittleEndian 4 (packLiterals bytes).length ++ packLiterals bytes).toArray
      = .ok bytes.toArray := by
  have hbytes : packLiterals bytes ≠ [] := by
    rw [packLiterals, if_neg hne]
    exact List.cons_ne_nil _ _
  rw [decompress_declared hlength, if_neg (Nat.lt_irrefl _), List.take_length,
    decompressPayload_of_ne_nil hbytes, items_packLiterals, replay_map_literal, List.nil_append]

end FieldMap.Lzs
