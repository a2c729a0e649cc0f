import FieldMap.Proofs.OperandBits

/-!
# Bits in any buffer

Operands are packed into a buffer that starts out empty, one behind the other, but packing asks for
neither. This module says what it does to whatever buffer it is given, at whatever place.

Whether bits can be reached depends on their offset, their number and the size of the buffer and on
nothing else (`BitPlace.fault?`), so reading and packing fail alike. Where they do not fail, packing
puts other bytes in the place (`BitPlace.stored`), and what is read afterwards comes down to these:
fewer than eight bits are added to the ones that are there, by a disjunction, and any more replace
whole bytes. That includes the bits behind them in the last byte, which an operand of twelve bits
clears although they are none of its own.

After an error the buffer is as it was. Of a function that gives a new buffer this cannot be
said, so it is said of `packInPlace`, which writes byte by byte into a buffer that is there after
an error too.
-/

namespace FieldMap

/-! ## Bits that cannot be reached -/

namespace BitPlace

/-- **Why bits cannot be reached** in a buffer of a size, if they cannot: they do not fit their
offset, or the buffer ends before they do. -/
def fault? (size bitOffset width : Nat) : Option CodecError :=
  if Fits bitOffset width then
    if bitOffset + width ≤ 8 * size then none
    else some (.truncated .operand (bitOffset / 8) (span width) (size - bitOffset / 8))
  else some (.misaligned bitOffset width)

theorem fault?_eq_none {size bitOffset width : Nat} :
    fault? size bitOffset width = none
      ↔ Fits bitOffset width ∧ bitOffset + width ≤ 8 * size := by
  unfold fault?
  split_ifs with hfit hsize
  · exact iff_of_true rfl ⟨hfit, hsize⟩
  · exact iff_of_false (fun h => nomatch h) (fun h => hsize h.2)
  · exact iff_of_false (fun h => nomatch h) (fun h => hfit h.1)

variable {buffer : List UInt8} {bitOffset width : Nat} {e : CodecError}

/-- Nothing is done with bits that cannot be reached: they have no place, or their place is not in
the buffer. -/
theorem bind_window_eq_error {α : Type} (h : fault? buffer.length bitOffset width = some e)
    (act : BitPlace → List UInt8 → Except CodecError α) :
    (locate bitOffset width >>= fun place =>
      window .operand place.byte (span width) buffer >>= act place) = .error e := by
  unfold fault? at h
  split_ifs at h with hfit hsize
  · obtain ⟨place, hplace⟩ := exists_locate_iff.mpr hfit
    obtain ⟨hpos, -, hbyte, hcase⟩ := locate_eq_ok.mp hplace
    rw [hplace, Except.ok_bind]
    cases hwindow : window .operand place.byte (span width) buffer with
    | ok part =>
      obtain ⟨front, back, hbuffer, hfront, hlen⟩ := append_of_window hwindow (span_pos hpos)
      rw [hbuffer, List.length_append, List.length_append, hfront, hlen] at hsize
      unfold span at hsize
      omega
    | error cause =>
      rw [Except.error_bind, window_eq_error hwindow, hbyte, Option.some.inj h]
  · rw [locate_eq_error hfit, Except.error_bind, Option.some.inj h]

/-- **Bits that can be reached** have a place, and the bytes of the place are the middle of the
buffer. -/
theorem exists_locate_of_fault? (h : fault? buffer.length bitOffset width = none) :
    ∃ place front old back, locate bitOffset width = .ok place
      ∧ buffer = front ++ (old ++ back) ∧ front.length = place.byte
      ∧ old.length = span width := by
  obtain ⟨hfit, hsize⟩ := fault?_eq_none.mp h
  obtain ⟨place, hplace⟩ := exists_locate_iff.mpr hfit
  obtain ⟨front, old, back, hbuffer⟩ :=
    exists_append_of_le ((end_le_of_locate hplace).trans (span_le_iff.mpr hsize))
  exact ⟨place, front, old, back, hplace, hbuffer⟩

end BitPlace

section Errors

variable {buffer : List UInt8} {bitOffset width : Nat} {e : CodecError}

theorem unpackBits_eq_error (h : BitPlace.fault? buffer.length bitOffset width = some e) :
    unpackBits buffer bitOffset width = .error e :=
  BitPlace.bind_window_eq_error h _

theorem packBits_eq_error (h : BitPlace.fault? buffer.length bitOffset width = some e)
    (value : Int) : packBits buffer bitOffset width value = .error e :=
  BitPlace.bind_window_eq_error h _

end Errors

/-! ## What packing leaves as it was -/

section Stored

variable {place : BitPlace} {front old : List UInt8} {bitOffset width : Nat}

/-- **Bytes outside of the place** stay as they are. -/
theorem getElem?_stored (back : List UInt8) (hfront : front.length = place.byte)
    (hold : old.length = BitPlace.span width) (value : Int) {index : Nat}
    (hindex : index < place.byte ∨ place.byte + BitPlace.span width ≤ index) :
    (front ++ (place.stored width value old ++ back))[index]? = (front ++ (old ++ back))[index]? := by
  have hlen := place.length_stored hold value
  rcases hindex with hbefore | hbehind
  · rw [List.getElem?_append_left (by omega), List.getElem?_append_left (by omega)]
  · rw [List.getElem?_append_right (by omega), List.getElem?_append_right (by omega),
      List.getElem?_append_right (by omega), List.getElem?_append_right (by omega), hlen, hold]

/-- Added bits are seen nowhere but where they were added. -/
theorem testBit_or_shifted {bits shift bit : Nat} (hbits : bits < 2 ^ width)
    (hbit : bit < shift ∨ shift + width ≤ bit) (n : Nat) :
    (n ||| bits * 2 ^ shift).testBit bit = n.testBit bit := by
  rw [Nat.testBit_or, Nat.testBit_mul_two_pow]
  rcases hbit with hbelow | habove
  · rw [decide_eq_false (by omega), Bool.false_and, Bool.or_false]
  · have hzero : bits.testBit (bit - shift) = false :=
      Nat.testBit_lt_two_pow (hbits.trans_le (Nat.pow_le_pow_right (by norm_num) (by omega)))
    rw [hzero, Bool.and_false, Bool.or_false]

/-- **Bits beside those of a narrow operand** stay as they are, in its byte too. -/
theorem bitAt_stored (back : List UInt8) (hplace : BitPlace.locate bitOffset width = .ok place)
    (hfront : front.length = place.byte) (hold : old.length = BitPlace.span width) (value : Int)
    (hnarrow : width < 8) {bit : Nat} (hbit : bit < bitOffset ∨ bitOffset + width ≤ bit) :
    bitAt (front ++ (place.stored width value old ++ back)) bit
      = bitAt (front ++ (old ++ back)) bit := by
  obtain ⟨hpos, -, hbyte, hcase⟩ := BitPlace.locate_eq_ok.mp hplace
  obtain ⟨b, rfl⟩ := BitPlace.exists_eq_singleton hpos hnarrow hold
  have hspan : BitPlace.span width = 1 := hold.symm
  have hbits := storedBits_lt width value
  unfold bitAt
  rw [List.getD_eq_getElem?_getD, List.getD_eq_getElem?_getD]
  by_cases hsame : bit / 8 = place.byte
  · have hget (x : UInt8) : (front ++ ([x] ++ back))[bit / 8]? = some x := by
      rw [hsame, ← hfront, List.getElem?_append_right le_rfl, Nat.sub_self]
      rfl
    rw [place.stored_narrow hnarrow, hget, hget, Option.getD_some, Option.getD_some,
      toNat_or_shifted (by omega) hbits, testBit_or_shifted hbits (by omega)]
  · rw [getElem?_stored back hfront hold value (by omega)]

end Stored

/-! ## Packing in place -/

/-- What is done to a buffer in place: the buffer is there after an error too. -/
abbrev InPlace (α : Type) := EStateM CodecError (List UInt8) α

/-- Writes bytes one behind the other. -/
def overwrite (offset : Nat) : List UInt8 → InPlace Unit
  | [] => pure ()
  | b :: bs => do
    modify fun buffer => buffer.set offset b
    overwrite (offset + 1) bs

/-- **Packs a value in place**, byte by byte. -/
def packInPlace (bitOffset width : Nat) (value : Int) : InPlace Unit := do
  let place ← ofExcept (BitPlace.locate bitOffset width)
  let old ← ofExcept (window .operand place.byte (BitPlace.span width) (← get))
  overwrite place.byte (place.stored width value old)

/-- Bytes that are written replace as many others. -/
theorem overwrite_append {front old new : List UInt8} (back : List UInt8) {offset : Nat}
    (hfront : front.length = offset) (hlen : new.length = old.length) :
    (overwrite offset new).run (front ++ (old ++ back)) = .ok () (front ++ (new ++ back)) := by
  induction new generalizing front old offset with
  | nil =>
    rw [List.length_nil] at hlen
    rw [List.length_eq_zero_iff.mp hlen.symm]
    rfl
  | cons b new ih =>
    obtain ⟨o, old, rfl⟩ := List.exists_cons_of_length_eq_add_one hlen.symm
    -- the byte that was written belongs to the front of the others
    have hset : (front ++ (o :: old ++ back)).set offset b = (front ++ [b]) ++ (old ++ back) := by
      rw [← hfront, List.set_append_right _ _ le_rfl, Nat.sub_self, List.append_assoc]
      rfl
    have hnext : (front ++ [b]).length = offset + 1 := by
      rw [List.length_append, hfront, List.length_singleton]
    show (overwrite (offset + 1) new).run ((front ++ (o :: old ++ back)).set offset b) = _
    rw [hset, ih hnext (Nat.succ.inj hlen), List.append_assoc]
    rfl

/-- **Packing in place gives the packed buffer**, and after an error the one that was there: nothing
is written before the bytes of the place are known to be in the buffer. -/
theorem packInPlace_eq_packBits (buffer : List UInt8) (bitOffset width : Nat) (value : Int) :
    (packInPlace bitOffset width value).run buffer
      = match packBits buffer bitOffset width value with
        | .ok packed => .ok () packed
        | .error e => .error e buffer := by
  unfold packInPlace
  cases hplace : BitPlace.locate bitOffset width with
  | error e =>
    unfold packBits
    rw [hplace]
    rfl
  | ok place =>
    show (ofExcept (window .operand place.byte (BitPlace.span width) buffer)
      >>= fun old => overwrite place.byte (place.stored width value old)).run buffer = _
    cases hwindow : window .operand place.byte (BitPlace.span width) buffer with
    | error e =>
      unfold packBits
      rw [hplace, Except.ok_bind, hwindow]
      rfl
    | ok old =>
      have hpos := (BitPlace.locate_eq_ok.mp hplace).1
      obtain ⟨front, back, rfl, hfront, hold⟩ :=
        append_of_window hwindow (BitPlace.span_pos hpos)
      rw [packBits_append hplace hfront hold]
      exact overwrite_append back hfront ((place.length_stored hold value).trans hold.symm)

/-- **What packing does to any buffer.** At every place and for every number of bits reading and
packing both fail, for the same reason and with the buffer as it was, or both succeed. Then the
buffer keeps its length, and only the bytes of the place change. Eight bits or more are read back as
the remainder of the value. Fewer are read as a disjunction of this remainder with the bits that
were there, and every other bit stays as it was. -/
theorem packBits_outcome (buffer : List UInt8) (bitOffset width : Nat) (value : Int) :
    match BitPlace.fault? buffer.length bitOffset width with
    | some e =>
      unpackBits buffer bitOffset width = .error e
        ∧ packBits buffer bitOffset width value = .error e
        ∧ (packInPlace bitOffset width value).run buffer = .error e buffer
    | none => ∃ before packed,
      unpackBits buffer bitOffset width = .ok before
        ∧ packBits buffer bitOffset width value = .ok packed
        ∧ (packInPlace bitOffset width value).run buffer = .ok () packed
        ∧ packed.length = buffer.length
        ∧ (∀ index, index < bitOffset / 8 ∨ bitOffset / 8 + (width + 7) / 8 ≤ index →
          packed[index]? = buffer[index]?)
        ∧ (8 ≤ width → unpackBits packed bitOffset width = .ok (value % 2 ^ width).toNat)
        ∧ (width < 8 →
          unpackBits packed bitOffset width = .ok (before ||| (value % 2 ^ width).toNat)
            ∧ ∀ bit, bit < bitOffset ∨ bitOffset + width ≤ bit →
              bitAt packed bit = bitAt buffer bit) := by
  rw [packInPlace_eq_packBits]
  cases hfault : BitPlace.fault? buffer.length bitOffset width with
  | some e =>
    rw [packBits_eq_error hfault]
    exact ⟨unpackBits_eq_error hfault, rfl, rfl⟩
  | none =>
    obtain ⟨place, front, old, back, hplace, rfl, hfront, hold⟩ :=
      BitPlace.exists_locate_of_fault? hfault
    have hbyte := (BitPlace.locate_eq_ok.mp hplace).2.2.1
    have hread := unpackBits_stored back hplace hfront hold value
    rw [packBits_append hplace hfront hold]
    refine ⟨_, _, unpackBits_append hplace hfront hold, rfl, rfl, ?_, fun index hindex => ?_,
      fun hwide => ?_, fun hnarrow => ⟨?_, fun bit hbit => ?_⟩⟩
    · simp only [List.length_append, place.length_stored hold, hold]
    · exact getElem?_stored back hfront hold value (hbyte ▸ hindex)
    · rw [hread, if_neg (by omega)]
      rfl
    · rw [hread, if_pos hnarrow]
      rfl
    · exact bitAt_stored back hplace hfront hold value hnarrow hbit

/-- Twelve bits clear the four behind them. -/
example : packBits [0xFF, 0xFF, 0xFF] 8 12 0x345 = .ok [0xFF, 0x45, 0x03] := by decide

/-- Three bits are added to those of another value, and two bytes are more than the buffer has from
its second one on. -/
theorem packBits_outcome_overlap :
    (∃ packed, unpackBits [0x12, 0x28] 10 3 = .ok 5
      ∧ packBits [0x12, 0x28] 10 3 (-6) = .ok packed
      ∧ packed[0]? = some 0x12
      ∧ unpackBits packed 10 3 = .ok (5 ||| 2)
      ∧ bitAt packed 9 = bitAt [0x12, 0x28] 9)
    ∧ (packInPlace 8 16 1).run [0x12, 0x28]
      = .error (.truncated .operand 1 2 1) [0x12, 0x28] := by
  have hreach : BitPlace.fault? [(0x12 : UInt8), 0x28].length 10 3 = none := by decide
  have hfault : BitPlace.fault? [(0x12 : UInt8), 0x28].length 8 16
      = some (.truncated .operand 1 2 1) := by decide
  have houtcome := packBits_outcome [0x12, 0x28] 10 3 (-6)
  have herror := packBits_outcome [0x12, 0x28] 8 16 1
  rw [hreach] at houtcome
  rw [hfault] at herror
  obtain ⟨before, packed, hbefore, hpacked, -, -, hbytes, -, hnarrow⟩ := houtcome
  have hread : unpackBits [0x12, 0x28] 10 3 = .ok 5 := by decide
  obtain rfl : before = 5 := Except.ok.inj (hbefore.symm.trans hread)
  obtain ⟨hafter, hbits⟩ := hnarrow (by decide)
  exact ⟨⟨packed, hread, hpacked, hbytes 0 (by decide), hafter, hbits 9 (by decide)⟩, herror.2.2⟩

end FieldMap
