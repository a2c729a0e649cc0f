import FieldMap.Script.Encoding
import FieldMap.Proofs.Shape

/-!
# Decoding loses nothing

What `Instruction.decode` reads from the front of a byte string encodes to
the bytes that were read, takes up at least one of them, and has the shape
and the range that its id asks for. `Instruction.Reads` is that bundle, and
`reads_of_decode` proves it along the four forms that a stored instruction
has: operands with kinds, raw bytes, and the two forms with a
sub-instruction.

Three of the forms are a header of fixed bytes and raw bytes behind it.
They share `packOperands_raw_form`, so that the only real work is in the
operands with kinds, whose formats have to fill the row exactly.
-/

namespace FieldMap.Instruction

open InstructionSet

/-- **An instruction read from the front of a byte string**, and what is
known of it. -/
structure Reads (bytes : List UInt8) (instruction : Instruction) : Prop where
  length_le : instruction.length ≤ bytes.length
  encode : instruction.encode = .ok (bytes.take instruction.length)
  length_pos : 1 ≤ instruction.length
  isLabel : instruction.isLabel = false
  wellShaped : instruction.WellShaped
  inRange : instruction.InRange

/-! ## The four forms -/

/-- A header and raw bytes behind it, packed and cut off where they end. -/
theorem packOperands_raw_form (header payload rest : List UInt8) :
    packOperands (header ++ List.replicate (payloadLength (payload.map Operand.raw)) 0)
        (8 * header.length) (payload.map Operand.raw)
      = .ok ((header ++ (payload ++ rest)).take
          (header.length + payloadLength (payload.map Operand.raw))) := by
  rw [payloadLength_raw, packOperands_raw, ← List.append_assoc, ← List.length_append,
    List.take_left]

theorem length_raw_form_le (header payload rest : List UInt8) :
    header.length + payloadLength (payload.map Operand.raw)
      ≤ (header ++ (payload ++ rest)).length := by
  rw [payloadLength_raw, List.length_append, List.length_append]
  omega

theorem reads_special {sub : UInt8} {rest : List UInt8} {instruction : Instruction}
    (h : decodeSpecial (specialId :: sub :: rest) = .ok instruction) :
    Reads (specialId :: sub :: rest) instruction := by
  unfold decodeSpecial at h
  simp only [Except.bind_eq_ok, Except.pure_eq_ok, Except.ok.injEq] at h
  obtain ⟨sub', hsub, payload, hpayload, rfl⟩ := h
  obtain rfl : sub = sub' := Option.some.inj (byteOf_eq_ok.mp hsub)
  obtain ⟨hpart, hlen⟩ := window_eq_ok.mp hpayload
  have hrest : rest = payload ++ rest.drop (specialPayloadLength sub) := by
    rw [← hpart]
    exact (List.take_append_drop _ rest).symm
  rw [hrest]
  exact {
    length_le := length_raw_form_le [specialId, sub] payload _
    encode := packOperands_raw_form [specialId, sub] payload _
    length_pos := Nat.le_add_right_of_le (by norm_num)
    isLabel := rfl
    wellShaped := areRaw_map_raw hlen
    inRange := inRange_map_raw payload }

theorem reads_kawai {stated : UInt8} {rest : List UInt8} {instruction : Instruction}
    (h : decodeKawai (kawaiId :: stated :: rest) = .ok instruction) :
    Reads (kawaiId :: stated :: rest) instruction := by
  unfold decodeKawai at h
  obtain ⟨length, hlength, h⟩ := Except.bind_eq_ok.mp h
  obtain rfl : stated = length := Option.some.inj (byteOf_eq_ok.mp hlength)
  split_ifs at h with hshort
  simp only [Except.bind_eq_ok, Except.pure_eq_ok, Except.ok.injEq] at h
  obtain ⟨sub, hsub, payload, hpayload, rfl⟩ := h
  obtain ⟨tail, rfl⟩ : ∃ tail, rest = sub :: tail := by
    have hhead : (kawaiId :: stated :: rest)[2]? = some sub := byteOf_eq_ok.mp hsub
    cases rest with
    | nil => exact absurd hhead (by simp)
    | cons b tail => exact ⟨tail, congrArg (· :: tail) (Option.some.inj hhead)⟩
  obtain ⟨hpart, hlen⟩ := window_eq_ok.mp hpayload
  have htail : tail = payload ++ tail.drop (stated.toNat - kawaiHeaderLength) := by
    rw [← hpart]
    exact (List.take_append_drop _ tail).symm
  have hbound := stated.toNat_lt
  have hstated : kawaiHeaderLength + payloadLength (payload.map Operand.raw) = stated.toNat := by
    rw [payloadLength_raw]
    omega
  have hfits : kawaiHeaderLength + payloadLength (payload.map Operand.raw) ≤ 255 := by omega
  rw [htail]
  exact {
    length_le := length_raw_form_le [kawaiId, stated, sub] payload _
    encode := by
      unfold encode
      dsimp only
      rw [if_pos hfits, hstated, UInt8.ofNat_toNat]
      exact packOperands_raw_form [kawaiId, stated, sub] payload _
    length_pos := Nat.le_add_right_of_le (by decide)
    isLabel := rfl
    wellShaped := by
      refine ⟨?_, areRaw_map_raw (List.length_map _).symm⟩
      rw [List.length_map, hlen, kawaiMaxPayload]
      omega
    inRange := inRange_map_raw payload }

/-- The bytes that `0x1C` states are the ones that its fifth operand
states. -/
theorem rawLength_of_window {id : UInt8} {bytes payload : List UInt8} {extra count : Nat}
    (hextra : extraLength id bytes = .ok extra)
    (hpayload : window .rawPayload 1 ((info id).length - 1 + extra) bytes = .ok payload)
    (hcount : count = (info id).length - 1 + extra) :
    count = rawLength id (payload.map Operand.raw) := by
  obtain ⟨hpart, hlen⟩ := window_eq_ok.mp hpayload
  unfold extraLength at hextra
  unfold rawLength
  rw [hcount]
  split_ifs at hextra ⊢ with hid
  · obtain ⟨size, hsize, rfl⟩ := Except.map_eq_ok.mp hextra
    have hbyte : bytes[5]? = some size := byteOf_eq_ok.mp hsize
    have hrow : (info id).length - 1 = 5 := by
      rw [hid]
      rfl
    have hfifth : payload[4]? = some size := by
      rw [← hpart, List.getElem?_take_of_lt (by omega), List.getElem?_drop]
      exact hbyte
    rw [List.getElem?_map, hfifth]
    show _ = _ + min ((size.toNat : Int) % 256).toNat maxExtraLength
    have hlt := size.toNat_lt
    rw [Int.emod_eq_of_lt (by omega) (by omega), Int.toNat_natCast]
  · rw [Except.ok.injEq] at hextra
    rw [hextra]

theorem reads_raw {id : UInt8} {rest : List UInt8} {instruction : Instruction}
    (hspecial : id ≠ specialId) (hkawai : id ≠ kawaiId) (hkinds : (info id).kinds.isEmpty = true)
    (h : decodeOrdinary id (id :: rest) = .ok instruction) : Reads (id :: rest) instruction := by
  unfold decodeOrdinary at h
  rw [if_pos hkinds] at h
  simp only [Except.bind_eq_ok, Except.pure_eq_ok, Except.ok.injEq] at h
  obtain ⟨extra, hextra, payload, hpayload, rfl⟩ := h
  obtain ⟨hpart, hlen⟩ := window_eq_ok.mp hpayload
  have hrest : rest = payload ++ rest.drop ((info id).length - 1 + extra) := by
    rw [← hpart]
    exact (List.take_append_drop _ rest).symm
  have hcount := rawLength_of_window hextra hpayload hlen
  rw [hrest]
  exact {
    length_le := length_raw_form_le [id] payload _
    encode := packOperands_raw_form [id] payload _
    length_pos := Nat.le_add_right 1 _
    isLabel := rfl
    wellShaped := by
      refine ⟨hspecial, hkawai, ?_⟩
      rw [if_pos hkinds]
      exact areRaw_map_raw hcount
    inRange := inRange_map_raw payload }

theorem reads_typed {id : UInt8} {rest : List UInt8} {instruction : Instruction}
    (hspecial : id ≠ specialId) (hkawai : id ≠ kawaiId) (hkinds : ¬(info id).kinds.isEmpty = true)
    (h : decodeOrdinary id (id :: rest) = .ok instruction) : Reads (id :: rest) instruction := by
  unfold decodeOrdinary at h
  rw [if_neg hkinds] at h
  simp only [Except.bind_eq_ok, Except.pure_eq_ok, Except.ok.injEq] at h
  obtain ⟨body, hbody, operands, hoperands, rfl⟩ := h
  obtain ⟨hpart, hlen⟩ := window_eq_ok.mp hbody
  rw [List.drop_zero] at hpart
  have hpos := (isExact_info id).1
  have hformats := format_of_readOperands hoperands
  have hrow := bitLength_of_kinds hkinds hformats
  have hpayload := payloadLength_of_kinds hkinds hformats
  have hlength : length (ordinary id operands) = (info id).length := by
    show 1 + payloadLength operands = _
    omega
  -- the row is as long as its operands, so the buffer is full when they are packed
  have hbuffer : id :: List.replicate (payloadLength operands) 0 = keepBits 8 body := by
    obtain ⟨tail, rfl⟩ : ∃ tail, body = id :: tail := by
      refine ⟨rest.take ((info id).length - 1), ?_⟩
      rw [← hpart, ← List.take_succ_cons, Nat.sub_add_cancel hpos]
    have hkeep := keepBits_append [id] tail 0
    rw [keepBits_zero] at hkeep
    rw [List.length_cons] at hlen
    rw [hpayload, ← hlen, Nat.add_sub_cancel]
    exact hkeep.symm
  have hfull : 8 + bitLength operands = 8 * body.length := by omega
  exact {
    length_le := by
      rw [hlength, ← hlen, ← hpart]
      exact List.length_take_le' _ _
    encode := by
      rw [hlength, hpart]
      show packOperands (id :: List.replicate (payloadLength operands) 0) 8 operands = _
      rw [hbuffer, packOperands_keepBits isTile_of_mem_formats hoperands, hfull, keepBits_all]
    length_pos := hlength ▸ hpos
    isLabel := rfl
    wellShaped := by
      refine ⟨hspecial, hkawai, ?_⟩
      rw [if_neg hkinds]
      exact hformats
    inRange := holds_of_readOperands kind_ne_label_of_mem_formats hoperands }

/-! ## Every instruction -/

/-- **Decoding an instruction loses nothing.** -/
theorem reads_of_decode {bytes : List UInt8} {instruction : Instruction}
    (h : decode bytes = .ok instruction) : Reads bytes instruction := by
  unfold decode at h
  obtain ⟨id, hid, h⟩ := Except.bind_eq_ok.mp h
  obtain ⟨rest, rfl⟩ : ∃ rest, bytes = id :: rest := by
    have hhead : bytes[0]? = some id := byteOf_eq_ok.mp hid
    cases bytes with
    | nil => exact absurd hhead (by simp)
    | cons b rest => exact ⟨rest, congrArg (· :: rest) (Option.some.inj hhead)⟩
  split_ifs at h with hspecial hkawai
  · subst hspecial
    cases rest with
    | nil =>
      obtain ⟨sub, hsub, -⟩ := Except.bind_eq_ok.mp h
      exact absurd (byteOf_eq_ok.mp hsub) (by simp)
    | cons sub rest => exact reads_special h
  · subst hkawai
    cases rest with
    | nil =>
      obtain ⟨stated, hstated, -⟩ := Except.bind_eq_ok.mp h
      exact absurd (byteOf_eq_ok.mp hstated) (by simp)
    | cons stated rest => exact reads_kawai h
  · by_cases hkinds : (info id).kinds.isEmpty = true
    · exact reads_raw hspecial hkawai hkinds h
    · exact reads_typed hspecial hkawai hkinds h

end FieldMap.Instruction
