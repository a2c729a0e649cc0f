import FieldMap.Proofs.Readers

/-!
# Bytes at their places

What is read at an offset is best said without the reader: `data.HoldsAt offset part`
says that the bytes `part` stand at an offset of some data. What stands one behind
the other can be taken apart (`HoldsAt.left`, `HoldsAt.right`), and of entries of
equal length each stands at its multiple of that length (`HoldsAt.entry`). So data
that is described as one part behind the other is walked through part by part, in
step with the reader that walks through it by offsets, and each reader gives what
stands where it reads (`HoldsAt.slice`, `HoldsAt.readNumber`).

In the other direction, all that a reader knows of some data is its size and the
bytes that it reads (`slice_congr`).
-/

namespace FieldMap

-- powers of numbers are those of the core library, whatever else is imported
attribute [local instance (high)] instPowNat

/-- **The error of a read** that finds too few bytes. -/
def CodecError.IsTruncated (e : CodecError) : Prop :=
  ∃ item offset needed available, e = .truncated item offset needed available

namespace Bytes

variable {data data' : Bytes} {item : Item} {offset count i : Nat} {part a b : List UInt8}

/-! ## When a read succeeds -/

/-- **A slice can be read** if it lies inside the data. -/
theorem slice_eq_ok {bytes : Bytes} :
    data.slice item offset count = .ok bytes
      ↔ offset + count ≤ data.size ∧ data.extract offset (offset + count) = bytes := by
  unfold slice
  split
  · rename_i h
    rw [Except.ok.injEq]
    exact ⟨fun heq => ⟨h, heq⟩, fun heq => heq.2⟩
  · rename_i h
    exact iff_of_false (fun heq => nomatch heq) (fun heq => h heq.1)

/-- **A number can be read** if its bytes lie inside the data. -/
theorem readNumber_eq_ok {n : Nat} :
    data.readNumber item offset count = .ok n
      ↔ offset + count ≤ data.size
        ∧ ofLittleEndian (data.extract offset (offset + count)).toList = n := by
  unfold readNumber
  rw [Except.map_eq_ok]
  constructor
  · rintro ⟨part, hpart, rfl⟩
    obtain ⟨hfits, rfl⟩ := slice_eq_ok.mp hpart
    exact ⟨hfits, rfl⟩
  · rintro ⟨hfits, rfl⟩
    exact ⟨_, slice_eq_ok.mpr ⟨hfits, rfl⟩, rfl⟩

theorem exists_readNumber_eq_ok (item : Item) (h : offset + count ≤ data.size) :
    ∃ n, data.readNumber item offset count = .ok n :=
  ⟨_, readNumber_eq_ok.mpr ⟨h, rfl⟩⟩

theorem isTruncated_of_slice {e : CodecError} (h : data.slice item offset count = .error e) :
    e.IsTruncated := by
  unfold slice at h
  split at h
  · exact nomatch h
  · exact ⟨_, _, _, _, (Except.error.inj h).symm⟩

theorem isTruncated_of_readNumber {e : CodecError}
    (h : data.readNumber item offset count = .error e) : e.IsTruncated :=
  isTruncated_of_slice (Except.map_eq_error.mp h)

/-! ## What a read depends on -/

theorem byteAt_eq_getElem (h : i < data.size) : data.byteAt i = data[i] := by
  unfold byteAt
  rw [Array.getD_eq_getD_getElem?, Array.getElem?_eq_getElem h, Option.getD_some]

/-- A byte string is its bytes, one after the other. -/
theorem toList_eq_map_byteAt (data : Bytes) :
    data.toList = (List.range data.size).map data.byteAt := by
  refine List.ext_getElem ?_ fun i hi _ => ?_
  · rw [Array.length_toList, List.length_map, List.length_range]
  · rw [Array.length_toList] at hi
    rw [List.getElem_map, List.getElem_range, byteAt_eq_getElem hi, Array.getElem_toList]

/-- **A slice is its bytes**, one after the other. -/
theorem toList_extract (h : offset + count ≤ data.size) :
    (data.extract offset (offset + count)).toList
      = (List.range count).map fun i => data.byteAt (offset + i) := by
  refine List.ext_getElem ?_ fun i hi hi' => ?_
  · rw [Array.length_toList, Array.size_extract, List.length_map, List.length_range]
    omega
  · rw [List.length_map, List.length_range] at hi'
    rw [Array.getElem_toList, Array.getElem_extract, List.getElem_map, List.getElem_range,
      byteAt_eq_getElem (by omega)]

theorem toNat_wordAt (data : Bytes) (offset : Nat) :
    (data.wordAt offset).toNat = ofLittleEndian [data.byteAt offset, data.byteAt (offset + 1)] := by
  have hlt : ofLittleEndian [data.byteAt offset, data.byteAt (offset + 1)] < 2 ^ 16 :=
    Nat.lt_of_lt_of_eq (ofLittleEndian_lt _) (by simp)
  unfold wordAt
  rw [UInt16.toNat_ofNat', Nat.mod_eq_of_lt hlt]

/-- **A word is stored as the two bytes that it was read from.** -/
theorem toLittleEndian_wordAt (data : Bytes) (offset : Nat) :
    toLittleEndian 2 (data.wordAt offset).toNat = [data.byteAt offset, data.byteAt (offset + 1)] := by
  rw [toNat_wordAt]
  exact toLittleEndian_ofLittleEndian [data.byteAt offset, data.byteAt (offset + 1)]

/-- **A word can be read** if it lies inside the data. -/
theorem readWord_eq_ok {n : Nat} :
    data.readWord item offset = .ok n
      ↔ offset + 2 ≤ data.size ∧ (data.wordAt offset).toNat = n := by
  unfold readWord
  rw [readNumber_eq_ok]
  refine and_congr_right fun hfits => ?_
  rw [toList_extract hfits, toNat_wordAt]
  rfl

section Congr

variable (hsize : data'.size = data.size)
  (h : ∀ i, offset ≤ i → i < offset + count → data'.byteAt i = data.byteAt i)

include hsize h

/-- **A slice depends on its bytes** only. -/
theorem slice_congr (item : Item) :
    data'.slice item offset count = data.slice item offset count := by
  unfold slice
  rw [hsize]
  split
  · rename_i hfits
    refine congrArg Except.ok (Array.ext ?_ fun i hi' hi => ?_)
    · rw [Array.size_extract, Array.size_extract, hsize]
    · rw [Array.size_extract] at hi
      have hbyte := h (offset + i) (by omega) (by omega)
      rw [byteAt_eq_getElem (by omega), byteAt_eq_getElem (by omega)] at hbyte
      rw [Array.getElem_extract, Array.getElem_extract, hbyte]
  · rfl

theorem readNumber_congr (item : Item) :
    data'.readNumber item offset count = data.readNumber item offset count := by
  unfold readNumber
  rw [slice_congr hsize h]

end Congr

/-- **What can be read from a part of some data** up to a place can be read from all of
it. -/
theorem slice_of_extract {stop : Nat} {bytes : Bytes}
    (h : slice (data.extract 0 stop) item offset count = .ok bytes) :
    data.slice item offset count = .ok bytes := by
  obtain ⟨hle, hbytes⟩ := slice_eq_ok.mp h
  rw [Array.size_extract] at hle
  refine slice_eq_ok.mpr ⟨by omega, ?_⟩
  rw [← hbytes, Array.extract_extract, Nat.zero_add, Nat.zero_add, Nat.min_eq_left (by omega)]

theorem readNumber_of_extract {stop n : Nat}
    (h : readNumber (data.extract 0 stop) item offset count = .ok n) :
    data.readNumber item offset count = .ok n := by
  obtain ⟨bytes, hbytes, hn⟩ := Except.map_eq_ok.mp h
  exact Except.map_eq_ok.mpr ⟨bytes, slice_of_extract hbytes, hn⟩

/-! ## What stands at an offset -/

/-- Entries of equal length together have a multiple of it. -/
theorem length_flatMap_of_forall {α : Type} {f : α → List UInt8} {entries : List α} {width : Nat}
    (hwidth : ∀ x ∈ entries, (f x).length = width) :
    (entries.flatMap f).length = entries.length * width := by
  induction entries with
  | nil => exact (Nat.zero_mul width).symm
  | cons first rest ih =>
    obtain ⟨hfirst, hrest⟩ := List.forall_mem_cons.mp hwidth
    rw [List.flatMap_cons, List.length_append, hfirst, ih hrest, List.length_cons, Nat.succ_mul,
      Nat.add_comm]

/-- **Bytes that stand at an offset.** -/
def HoldsAt (data : Bytes) (offset : Nat) (part : List UInt8) : Prop :=
  ∃ front back, data.toList = front ++ part ++ back ∧ front.length = offset

namespace HoldsAt

theorem toArray (part : List UInt8) : HoldsAt part.toArray 0 part :=
  ⟨[], [], (List.append_nil part).symm, rfl⟩

/-- Of two parts, the first stands where both begin. -/
theorem left (h : data.HoldsAt offset (a ++ b)) : data.HoldsAt offset a := by
  obtain ⟨front, back, hdata, hfront⟩ := h
  exact ⟨front, b ++ back, by rw [hdata]; simp only [List.append_assoc], hfront⟩

/-- Of two parts, the second stands where the first ends. -/
theorem right (h : data.HoldsAt offset (a ++ b)) : data.HoldsAt (offset + a.length) b := by
  obtain ⟨front, back, hdata, hfront⟩ := h
  refine ⟨front ++ a, back, by rw [hdata]; simp only [List.append_assoc], ?_⟩
  rw [List.length_append, hfront]

/-- The second part stands behind the length of the first. -/
theorem behind {length : Nat} (h : data.HoldsAt offset (a ++ b)) (ha : a.length = length) :
    data.HoldsAt (offset + length) b := ha ▸ h.right

theorem tail {x : UInt8} (h : data.HoldsAt offset (x :: part)) : data.HoldsAt (offset + 1) part :=
  right (a := [x]) h

/-- **Of many entries**, each stands behind those in front of it. -/
theorem flatMap {α : Type} {f : α → List UInt8} {entries : List α}
    (h : data.HoldsAt offset (entries.flatMap f)) {i : Nat} {x : α} (hx : entries[i]? = some x) :
    data.HoldsAt (offset + ((entries.take i).flatMap f).length) (f x) := by
  obtain ⟨hlt, rfl⟩ := List.getElem?_eq_some_iff.mp hx
  rw [← List.take_append_drop i entries, List.flatMap_append, List.drop_eq_getElem_cons hlt,
    List.flatMap_cons] at h
  exact h.right.left

/-- **Of entries of equal length**, each stands at its multiple of the length. -/
theorem entry {α : Type} {f : α → List UInt8} {entries : List α} {width : Nat}
    (h : data.HoldsAt offset (entries.flatMap f)) (hwidth : ∀ x ∈ entries, (f x).length = width)
    {i : Nat} {x : α} (hx : entries[i]? = some x) : data.HoldsAt (offset + i * width) (f x) := by
  have hat := h.flatMap hx
  have hlt := (List.getElem?_eq_some_iff.mp hx).1
  rwa [length_flatMap_of_forall fun y hy => hwidth y (List.mem_of_mem_take hy),
    List.length_take_of_le (Nat.le_of_lt hlt)] at hat

/-- What is put behind some data leaves it where it is. -/
theorem append (h : data.HoldsAt offset part) (tail : Bytes) :
    HoldsAt (data ++ tail) offset part := by
  obtain ⟨front, back, hdata, hfront⟩ := h
  refine ⟨front, back ++ tail.toList, ?_, hfront⟩
  rw [Array.toList_append, hdata, List.append_assoc _ back]

/-- What stands somewhere lies inside the data. -/
theorem le_size (h : data.HoldsAt offset part) : offset + part.length ≤ data.size := by
  obtain ⟨front, back, hdata, hfront⟩ := h
  rw [← Array.length_toList, hdata, List.length_append, List.length_append, hfront]
  omega

theorem extract (h : data.HoldsAt offset part) :
    data.extract offset (offset + part.length) = part.toArray := by
  obtain ⟨front, back, hdata, rfl⟩ := h
  apply Array.toList_inj.mp
  rw [Array.toList_extract, hdata, List.extract_eq_take_drop, Nat.add_sub_cancel_left,
    List.append_assoc, List.drop_left, List.take_left]

/-- **What stands somewhere** is what the data go on with from there. -/
theorem iff_drop :
    data.HoldsAt offset part
      ↔ offset ≤ data.size ∧ ∃ back, data.toList.drop offset = part ++ back := by
  constructor
  · intro h
    have hle := h.le_size
    obtain ⟨front, back, hdata, rfl⟩ := h
    refine ⟨Nat.le_trans (Nat.le_add_right ..) hle, back, ?_⟩
    rw [hdata, List.append_assoc, List.drop_left]
  · rintro ⟨hle, back, hback⟩
    refine ⟨data.toList.take offset, back, ?_, List.length_take_of_le ?_⟩
    · rw [List.append_assoc, ← hback, List.take_append_drop]
    · rwa [Array.length_toList]

/-- **A part of the data** stands where it is taken from. -/
theorem of_extract (h : offset + count ≤ data.size) :
    data.HoldsAt offset (data.extract offset (offset + count)).toList := by
  refine iff_drop.mpr ⟨Nat.le_trans (Nat.le_add_right ..) h,
    (data.toList.drop offset).drop count, ?_⟩
  rw [Array.toList_extract, List.extract_eq_take_drop, Nat.add_sub_cancel_left,
    List.take_append_drop]

theorem of_byteAt (h : offset + 1 ≤ data.size) : data.HoldsAt offset [data.byteAt offset] := by
  have hpart := of_extract h
  rw [toList_extract h] at hpart
  exact hpart

theorem of_wordAt (h : offset + 2 ≤ data.size) :
    data.HoldsAt offset (toLittleEndian 2 (data.wordAt offset).toNat) := by
  have hpart := of_extract h
  rw [toList_extract h] at hpart
  rw [toLittleEndian_wordAt]
  exact hpart

/-- **A slice is what stands there.** -/
theorem slice (h : data.HoldsAt offset part) (hlength : part.length = count) (item : Item) :
    data.slice item offset count = .ok part.toArray := by
  subst hlength
  exact slice_eq_ok.mpr ⟨h.le_size, h.extract⟩

/-- The bytes of a number stand for it. -/
theorem ofLittleEndian_extract {n : Nat} (h : data.HoldsAt offset (toLittleEndian count n))
    (hn : n < 256 ^ count) : ofLittleEndian (data.extract offset (offset + count)).toList = n := by
  have hbytes := h.extract
  rw [length_toLittleEndian] at hbytes
  rw [hbytes, List.toList_toArray, ofLittleEndian_toLittleEndian, Nat.mod_eq_of_lt hn]

/-- **A number is read back** where it was written. -/
theorem readNumber {n : Nat} (h : data.HoldsAt offset (toLittleEndian count n))
    (hn : n < 256 ^ count) (item : Item) : data.readNumber item offset count = .ok n := by
  have hle := h.le_size
  rw [length_toLittleEndian] at hle
  exact readNumber_eq_ok.mpr ⟨hle, h.ofLittleEndian_extract hn⟩

theorem readByte {x : UInt8} (h : data.HoldsAt offset (x :: part)) (item : Item) :
    data.readByte item offset = .ok x.toNat := by
  have hbyte : data.HoldsAt offset (toLittleEndian 1 x.toNat) := by
    rw [toLittleEndian, UInt8.ofNat_toNat]
    exact left (a := [x]) h
  exact hbyte.readNumber x.toNat_lt item

/-- **A byte is what stands there.** -/
theorem byteAt (h : data.HoldsAt offset part) {x : UInt8} (hx : part[i]? = some x) :
    data.byteAt (offset + i) = x := by
  obtain ⟨front, back, hdata, rfl⟩ := h
  obtain ⟨hlt, -⟩ := List.getElem?_eq_some_iff.mp hx
  unfold Bytes.byteAt
  rw [Array.getD_eq_getD_getElem?, ← Array.getElem?_toList, hdata, List.append_assoc,
    List.getElem?_append_right (Nat.le_add_right ..), Nat.add_sub_cancel_left,
    List.getElem?_append_left hlt, hx, Option.getD_some]

/-- Bytes are read as they are read of the part alone. -/
theorem byteAt_eq {bytes : Bytes} (h : data.HoldsAt offset bytes.toList) (hi : i < bytes.size) :
    data.byteAt (offset + i) = bytes.byteAt i := by
  rw [byteAt_eq_getElem hi]
  exact h.byteAt (by rw [Array.getElem?_toList, Array.getElem?_eq_getElem hi])

/-- **A word is what stands there.** -/
theorem wordAt {value : UInt16} (h : data.HoldsAt offset (toLittleEndian 2 value.toNat)) :
    data.wordAt offset = value := by
  have hlow : data.byteAt offset = UInt8.ofNat value.toNat := h.byteAt (i := 0) rfl
  have hhigh : data.byteAt (offset + 1) = UInt8.ofNat (value.toNat / 256) := h.byteAt rfl
  have hvalue := ofLittleEndian_toLittleEndian 2 value.toNat
  unfold Bytes.wordAt
  rw [hlow, hhigh]
  refine (congrArg UInt16.ofNat hvalue).trans ?_
  rw [Nat.mod_eq_of_lt value.toNat_lt, UInt16.ofNat_toNat]

end HoldsAt

end Bytes

end FieldMap
