import FieldMap.Proofs.PackedOperands
import FieldMap.Proofs.Stream

/-!
# Encoding and decoding again

An instruction that has the shape its id asks for can always be encoded, takes
up as many bytes as its length says, and is read back from these bytes whatever
follows them. Its values may have changed on the way: what comes back is the
instruction with the values that are stored for its values
(`Instruction.wrapped`), and so the same instruction if these are in range.

Encoding does not tell an instruction from its wrapped form (`encode_wrapped`),
which has the same shape and is in range. It is therefore enough to follow
instructions in range through the four stored forms. In three of them the
operands are bytes behind a header of fixed length, and the fourth is the
work of `readOperands_of_packOperands`.
-/

namespace FieldMap

open InstructionSet

/-- **Every row has places for its operands** behind the id. -/
theorem havePlaces_table : ∀ row ∈ table.toList, havePlaces 8 row.formats = true := by
  decide +kernel

namespace Instruction

/-- The instruction with the values that are stored for its values. -/
def wrapped (instruction : Instruction) : Instruction :=
  instruction.withOperands (instruction.operands.map Operand.wrapped)

/-! ## The formats of an instruction with a shape -/

/-- The formats of an instruction with a shape are those of kinds, and not that of
labels. -/
theorem WellShaped.kind_ne_label {instruction : Instruction} (h : instruction.WellShaped) :
    ∀ operand ∈ instruction.operands, operand.format.kind ≠ .label :=
  h.forall_format (P := fun format => format.kind ≠ .label) (by decide)
    (fun _ => kind_ne_label_of_mem_formats)

theorem WellShaped.width_pos {instruction : Instruction} (h : instruction.WellShaped) :
    ∀ operand ∈ instruction.operands, 0 < operand.format.width := by
  intro operand hmem
  obtain ⟨kind, hformat⟩ := h.exists_kind operand hmem
  rw [hformat]
  cases kind <;> decide

/-! ## The wrapped form -/

theorem operands_wrapped (instruction : Instruction) :
    instruction.wrapped.operands = instruction.operands.map Operand.wrapped := by
  cases instruction <;> rfl

theorem isLabel_wrapped (instruction : Instruction) :
    instruction.wrapped.isLabel = instruction.isLabel :=
  isLabel_withOperands ..

theorem payloadLength_wrapped (operands : List Operand) :
    payloadLength (operands.map Operand.wrapped) = payloadLength operands :=
  payloadLength_congr (Operand.map_format_wrapped operands)

theorem length_wrapped (instruction : Instruction) :
    instruction.wrapped.length = instruction.length :=
  length_withOperands (Operand.map_format_wrapped instruction.operands)

/-- **Encoding does not see** which of the values that are stored alike it is
given. -/
theorem encode_wrapped (instruction : Instruction) :
    instruction.wrapped.encode = instruction.encode := by
  cases instruction with
  | label number => rfl
  | _ =>
    unfold wrapped operands withOperands encode
    simp only [payloadLength_wrapped, packOperands_wrapped]

/-- A raw operand states the same number of bytes when it is wrapped. -/
theorem rawLength_wrapped {id : UInt8} {operands : List Operand} {count : Nat}
    (hraw : AreRaw count operands) :
    rawLength id (operands.map Operand.wrapped) = rawLength id operands := by
  unfold rawLength
  rw [List.getElem?_map]
  cases hfifth : operands[4]? with
  | none => rfl
  | some operand =>
    have hcongr : operand.wrapped.value ≡ operand.value [ZMOD 2 ^ operand.format.width] :=
      operand.format.wrap_modEq operand.value
    rw [hraw.format_eq (List.mem_of_getElem? hfifth)] at hcongr
    have hbyte : operand.wrapped.value % 256 = operand.value % 256 := hcongr
    simp only [Option.map_some, hbyte]

theorem WellShaped.wrapped {instruction : Instruction} (h : instruction.WellShaped) :
    instruction.wrapped.WellShaped := by
  have hraw : ∀ {count operands}, AreRaw count operands →
      AreRaw count (operands.map Operand.wrapped) := fun hraw =>
    (Operand.map_format_wrapped _).trans hraw
  cases instruction with
  | ordinary id operands =>
    obtain ⟨hspecial, hkawai, hformats⟩ := h
    refine ⟨hspecial, hkawai, ?_⟩
    split_ifs at hformats ⊢
    · show AreRaw (rawLength id (operands.map Operand.wrapped)) (operands.map Operand.wrapped)
      rw [rawLength_wrapped hformats]
      exact hraw hformats
    · exact (Operand.map_format_wrapped _).trans hformats
  | special sub operands => exact hraw h
  | kawai sub operands =>
    refine ⟨(List.length_map _).trans_le h.1, ?_⟩
    rw [List.length_map]
    exact hraw h.2
  | label number => trivial

theorem WellShaped.inRange_wrapped {instruction : Instruction} (h : instruction.WellShaped) :
    instruction.wrapped.InRange := by
  intro operand hmem
  rw [operands_wrapped] at hmem
  obtain ⟨original, horiginal, rfl⟩ := List.mem_map.mp hmem
  exact OperandFormat.holds_wrap (h.kind_ne_label original horiginal) (h.width_pos original horiginal)
    original.value

theorem WellShaped.map_wrapped {instruction : Instruction} (h : instruction.WellShaped)
    (hrange : instruction.InRange) :
    instruction.operands.map Operand.wrapped = instruction.operands := by
  conv_rhs => rw [← List.map_id instruction.operands]
  refine List.map_congr_left (fun operand hmem => ?_)
  unfold Operand.wrapped
  rw [OperandFormat.wrap_of_holds (h.kind_ne_label operand hmem) (h.width_pos operand hmem)
    (hrange operand hmem)]
  rfl

/-- **An instruction in range is its own wrapped form.** -/
theorem WellShaped.wrapped_eq_self {instruction : Instruction} (h : instruction.WellShaped)
    (hrange : instruction.InRange) : instruction.wrapped = instruction := by
  unfold Instruction.wrapped
  rw [h.map_wrapped hrange]
  cases instruction <;> rfl

/-! ## The four forms in range -/

/-- **An instruction that is written** to bytes from which it is read back. -/
def IsWritten (instruction : Instruction) (bytes : List UInt8) : Prop :=
  instruction.encode = .ok bytes ∧ bytes.length = instruction.length
    ∧ ∀ tail, decode (bytes ++ tail) = .ok instruction

/-- A header and raw bytes behind it, packed. -/
theorem packOperands_raw_behind (header payload : List UInt8) :
    packOperands (header ++ List.replicate (payloadLength (payload.map Operand.raw)) 0)
        (8 * header.length) (payload.map Operand.raw) = .ok (header ++ payload) := by
  rw [payloadLength_raw, packOperands_raw]

theorem decode_cons_ordinary {id : UInt8} (hspecial : id ≠ specialId) (hkawai : id ≠ kawaiId)
    (bytes : List UInt8) : decode (id :: bytes) = decodeOrdinary id (id :: bytes) := by
  show (if id = specialId then _ else if id = kawaiId then _ else _) = _
  rw [if_neg hspecial, if_neg hkawai]

theorem isWritten_special {sub : UInt8} {payload : List UInt8}
    (hlen : payload.length = specialPayloadLength sub) :
    IsWritten (special sub (payload.map Operand.raw)) (specialId :: sub :: payload) := by
  refine ⟨packOperands_raw_behind [specialId, sub] payload, ?_, fun tail => ?_⟩
  · show payload.length + 2 = 2 + payloadLength (payload.map Operand.raw)
    rw [payloadLength_raw, Nat.add_comm]
  · have hpayload : window .specialPayload 2 (specialPayloadLength sub)
        ([specialId, sub] ++ (payload ++ tail)) = .ok payload :=
      window_append [specialId, sub] tail rfl hlen
    show decodeSpecial ([specialId, sub] ++ (payload ++ tail)) = _
    unfold decodeSpecial
    show (do let payload ← window .specialPayload 2 (specialPayloadLength sub) _; _) = _
    rw [hpayload]
    rfl

theorem isWritten_kawai {sub : UInt8} {payload : List UInt8}
    (hlen : payload.length ≤ kawaiMaxPayload) :
    IsWritten (kawai sub (payload.map Operand.raw))
      (kawaiId :: UInt8.ofNat (kawaiHeaderLength + payload.length) :: sub :: payload) := by
  have hfits : kawaiHeaderLength + payload.length ≤ 255 := by
    have hmax : kawaiMaxPayload = 255 - kawaiHeaderLength := rfl
    have hheader : kawaiHeaderLength = 3 := rfl
    omega
  set stated := UInt8.ofNat (kawaiHeaderLength + payload.length) with hstated
  have hlength : stated.toNat = kawaiHeaderLength + payload.length := by
    rw [hstated, UInt8.toNat_ofNat']
    omega
  refine ⟨?_, ?_, fun tail => ?_⟩
  · unfold encode
    dsimp only
    rw [payloadLength_raw, if_pos hfits, ← hstated]
    have hpacked := packOperands_raw_behind [kawaiId, stated, sub] payload
    rwa [payloadLength_raw] at hpacked
  · show payload.length + 3 = kawaiHeaderLength + payloadLength (payload.map Operand.raw)
    rw [payloadLength_raw, Nat.add_comm]
    rfl
  · have hpayload : window .kawaiPayload kawaiHeaderLength (stated.toNat - kawaiHeaderLength)
        ([kawaiId, stated, sub] ++ (payload ++ tail)) = .ok payload :=
      window_append [kawaiId, stated, sub] tail rfl (by omega)
    show decodeKawai ([kawaiId, stated, sub] ++ (payload ++ tail)) = _
    unfold decodeKawai
    show (if stated.toNat < kawaiHeaderLength then _ else _) = _
    rw [if_neg (by omega)]
    show (do
      let payload ← window .kawaiPayload kawaiHeaderLength (stated.toNat - kawaiHeaderLength) _; _) = _
    rw [hpayload]
    rfl

/-- What `0x1C` states is the number of bytes that it has. -/
theorem extraLength_cons {id : UInt8} {payload : List UInt8}
    (hlen : payload.length = rawLength id (payload.map Operand.raw)) (tail : List UInt8) :
    ∃ extra, extraLength id (id :: (payload ++ tail)) = .ok extra
      ∧ payload.length = (info id).length - 1 + extra := by
  rw [rawLength_map_raw] at hlen
  unfold extraLength
  split_ifs at hlen ⊢ with hid
  · have hrow : (info id).length - 1 = 5 := by
      rw [hid]
      rfl
    have hlt : 4 < payload.length := by omega
    have hfifth : (id :: (payload ++ tail))[5]? = some payload[4] := by
      rw [List.getElem?_cons_succ, List.getElem?_append_left hlt, List.getElem?_eq_getElem hlt]
    have hbyte : byteOf .extraLength extraLengthOffset (id :: (payload ++ tail)) = .ok payload[4] :=
      byteOf_eq_ok.mpr hfifth
    rw [List.getElem?_eq_getElem hlt] at hlen
    rw [hbyte]
    exact ⟨_, rfl, hlen⟩
  · exact ⟨0, rfl, hlen⟩

theorem isWritten_raw {id : UInt8} {payload : List UInt8} (hspecial : id ≠ specialId)
    (hkawai : id ≠ kawaiId) (hkinds : (info id).kinds.isEmpty = true)
    (hlen : payload.length = rawLength id (payload.map Operand.raw)) :
    IsWritten (ordinary id (payload.map Operand.raw)) (id :: payload) := by
  refine ⟨packOperands_raw_behind [id] payload, ?_, fun tail => ?_⟩
  · show payload.length + 1 = 1 + payloadLength (payload.map Operand.raw)
    rw [payloadLength_raw, Nat.add_comm]
  · obtain ⟨extra, hextra, hcount⟩ := extraLength_cons hlen tail
    have hpayload : window .rawPayload 1 ((info id).length - 1 + extra) ([id] ++ (payload ++ tail))
        = .ok payload := window_append [id] tail rfl hcount
    rw [List.cons_append, decode_cons_ordinary hspecial hkawai]
    unfold decodeOrdinary
    rw [if_pos hkinds, hextra, Except.ok_bind]
    show (do
      let payload ← window .rawPayload 1 ((info id).length - 1 + extra) ([id] ++ (payload ++ tail))
      _) = _
    rw [hpayload]
    rfl

/-- **Operands in the formats of a row** can be packed behind the id and read back
from there. -/
theorem exists_packOperands_of_kinds {id : UInt8} {operands : List Operand}
    (hkinds : ¬(info id).kinds.isEmpty = true)
    (hformats : operands.map Operand.format = (info id).formats) :
    ∃ rest, packOperands (id :: List.replicate (payloadLength operands) 0) 8 operands
        = .ok (id :: rest)
      ∧ (id :: rest).length = (info id).length
      ∧ readOperands (id :: rest) 8 (info id).formats = .ok (operands.map Operand.wrapped) := by
  have hpos := (isExact_info id).1
  have hlength : (id :: List.replicate (payloadLength operands) 0).length = (info id).length := by
    rw [List.length_cons, List.length_replicate, payloadLength_of_kinds hkinds hformats]
    omega
  have hplaces : havePlaces 8 (operands.map Operand.format) = true :=
    hformats ▸ havePlaces_table _ (info_mem_table id)
  have hfits : BitPlace.span (8 + bitLength operands)
      ≤ (id :: List.replicate (payloadLength operands) 0).length := by
    rw [hlength, bitLength_of_kinds hkinds hformats]
    unfold BitPlace.span
    omega
  have hmem : ∀ operand ∈ operands,
      operand.format.kind ≠ .label ∧ IsTile operand.format.width := fun operand hmem => by
    have hformat : operand.format ∈ (info id).formats := hformats ▸ List.mem_map_of_mem hmem
    exact ⟨kind_ne_label_of_mem_formats _ hformat, isTile_of_mem_formats _ hformat⟩
  obtain ⟨bytes, hbytes, hlen⟩ := exists_packOperands_eq_ok hplaces hfits
  have hempty := isEmptyFrom_header [id] (payloadLength operands)
  have hfront := (keepBits_of_packOperands (fun o ho => (hmem o ho).2) hempty hbytes).1
  have hread := readOperands_of_packOperands hmem hempty hbytes
  -- the bits in front of the operands are those of the id
  obtain ⟨rest, rfl⟩ : ∃ rest, bytes = id :: rest := by
    cases bytes with
    | nil => exact nomatch hlen
    | cons b rest =>
      have hid : highBits 8 b = id := (List.cons.inj hfront).1
      rw [highBits_of_le le_rfl] at hid
      exact ⟨rest, congrArg (· :: rest) hid⟩
  rw [hformats] at hread
  exact ⟨rest, hbytes, hlen.trans hlength, hread⟩

theorem isWritten_typed {id : UInt8} {operands : List Operand} (hspecial : id ≠ specialId)
    (hkawai : id ≠ kawaiId) (hkinds : ¬(info id).kinds.isEmpty = true)
    (hformats : operands.map Operand.format = (info id).formats)
    (hrange : (ordinary id operands).InRange) :
    ∃ bytes, IsWritten (ordinary id operands) bytes := by
  have hshape : (ordinary id operands).WellShaped := by
    refine ⟨hspecial, hkawai, ?_⟩
    rwa [if_neg hkinds]
  have hwrapped : operands.map Operand.wrapped = operands := hshape.map_wrapped hrange
  obtain ⟨rest, hbytes, hlen, hread⟩ := exists_packOperands_of_kinds hkinds hformats
  refine ⟨id :: rest, hbytes, ?_, fun tail => ?_⟩
  · have hpos := (isExact_info id).1
    show (id :: rest).length = 1 + payloadLength operands
    rw [hlen, payloadLength_of_kinds hkinds hformats]
    omega
  · have hbody : window .instruction 0 (info id).length ([] ++ ((id :: rest) ++ tail))
        = .ok (id :: rest) := window_append [] tail rfl hlen
    rw [List.cons_append, decode_cons_ordinary hspecial hkawai]
    unfold decodeOrdinary
    rw [if_neg hkinds]
    show (do let body ← window .instruction 0 (info id).length ([] ++ ((id :: rest) ++ tail)); _) = _
    rw [hbody, Except.ok_bind, hread, hwrapped]
    rfl

/-- **An instruction in range is read back from its bytes.** -/
theorem exists_isWritten {instruction : Instruction} (hshape : instruction.WellShaped)
    (hrange : instruction.InRange) (hlabel : instruction.isLabel = false) :
    ∃ bytes, IsWritten instruction bytes := by
  cases instruction with
  | ordinary id operands =>
    obtain ⟨hspecial, hkawai, hformats⟩ := hshape
    split_ifs at hformats with hkinds
    · obtain ⟨payload, hlen, rfl⟩ := eq_map_raw hformats hrange
      exact ⟨_, isWritten_raw hspecial hkawai hkinds hlen⟩
    · exact isWritten_typed hspecial hkawai hkinds hformats hrange
  | special sub operands =>
    obtain ⟨payload, hlen, rfl⟩ := eq_map_raw hshape hrange
    exact ⟨_, isWritten_special hlen⟩
  | kawai sub operands =>
    obtain ⟨hmax, hraw⟩ := hshape
    obtain ⟨payload, hlen, rfl⟩ := eq_map_raw hraw hrange
    exact ⟨_, isWritten_kawai (hlen.trans_le hmax)⟩
  | label number => exact nomatch hlabel

/-- **Any values**: the instruction is read back with the values that are stored for
its own. -/
theorem exists_decode_of_wellShaped {instruction : Instruction} (hshape : instruction.WellShaped)
    (hlabel : instruction.isLabel = false) :
    ∃ bytes, instruction.encode = .ok bytes ∧ bytes.length = instruction.length
      ∧ ∀ tail, decode (bytes ++ tail) = .ok instruction.wrapped := by
  obtain ⟨bytes, hencode, hlength, hdecode⟩ := exists_isWritten hshape.wrapped
    hshape.inRange_wrapped (instruction.isLabel_wrapped.trans hlabel)
  rw [encode_wrapped] at hencode
  rw [length_wrapped] at hlength
  exact ⟨bytes, hencode, hlength, hdecode⟩

/-! ## Labels -/

theorem checkLabel_eq_ok {number : Nat} : checkLabel number = .ok () ↔ number ≤ 0x7FFFFFFF := by
  unfold checkLabel
  rw [Operand.check_eq_ok, OperandFormat.holds_iff]
  show (0 : Int) ≤ number ∧ (number : Int) ≤ 2 ^ 31 - 1 ↔ _
  omega

theorem encode_label_eq_ok {number : Nat} {bytes : List UInt8} :
    (label number).encode = .ok bytes
      ↔ number ≤ 0x7FFFFFFF ∧ labelMarker :: toLittleEndian 4 number = bytes := by
  unfold encode
  rw [Except.bind_eq_ok, ← checkLabel_eq_ok]
  simp only [Except.pure_eq_ok, Except.ok.injEq]
  constructor
  · rintro ⟨⟨⟩, hnumber, hbytes⟩
    exact ⟨hnumber, hbytes⟩
  · rintro ⟨hnumber, hbytes⟩
    exact ⟨(), hnumber, hbytes⟩

/-- **A stored label is read back.** -/
theorem decodeLabel_of_encode {number : Nat} {bytes : List UInt8}
    (h : (label number).encode = .ok bytes) (tail : List UInt8) :
    decodeLabel (bytes ++ tail) = .ok (label number) := by
  obtain ⟨hnumber, rfl⟩ := encode_label_eq_ok.mp h
  have hstored : window .label 0 labelLength
      ([] ++ ((labelMarker :: toLittleEndian 4 number) ++ tail))
        = .ok (labelMarker :: toLittleEndian 4 number) :=
    window_append [] tail rfl (by rw [List.length_cons, length_toLittleEndian]; rfl)
  have hvalue : ofLittleEndian (toLittleEndian 4 number) = number := by
    rw [ofLittleEndian_toLittleEndian]
    omega
  unfold decodeLabel
  rw [List.nil_append] at hstored
  rw [hstored, Except.ok_bind, List.head?_cons, if_pos rfl, List.drop_succ_cons, List.drop_zero,
    hvalue]
  dsimp only
  rw [checkLabel_eq_ok.mpr hnumber]
  rfl

end Instruction

namespace Script

/-- **A script in range is read back from its bytecode.** -/
theorem exists_decode_of_wellShaped {script : Script}
    (h : ∀ instruction ∈ script,
      instruction.WellShaped ∧ instruction.InRange ∧ instruction.isLabel = false) :
    ∃ bytes, script.encode = .ok bytes ∧ decode bytes = .ok script := by
  induction script with
  | nil => exact ⟨[], rfl, decode_nil⟩
  | cons instruction rest ih =>
    obtain ⟨hshape, hrange, hlabel⟩ := h instruction List.mem_cons_self
    obtain ⟨front, hencode, hlength, hdecode⟩ :=
      Instruction.exists_isWritten hshape hrange hlabel
    obtain ⟨back, hback, hrest⟩ := ih (fun i hi => h i (List.mem_cons_of_mem instruction hi))
    have hpos := (Instruction.reads_of_decode (hdecode back)).length_pos
    have hne : front ++ back ≠ [] := List.append_ne_nil_of_left_ne_nil
      (List.length_pos_iff.mp (hlength ▸ hpos)) back
    refine ⟨front ++ back, ?_, ?_⟩
    · rw [encode_cons hlabel, hencode, Except.ok_bind, hback]
      rfl
    · rw [decode_of_ne_nil hne, hdecode, Except.ok_bind, ← hlength, List.drop_left, hrest]
      rfl

/-- **Encoding is undone by decoding**, with values wrapped to their formats. An
instruction of the right shape is encoded to as many bytes as its length says,
and is read from these, whatever follows them, with each value replaced by the
only one that is in range and differs from it by a multiple of `2 ^ width`; if
all values are in range, it is the same instruction. So a script of such
instructions in range is read back from its bytecode. A label can be stored if
its number is below `2 ^ 31`, and is then read back as well. -/
theorem encode_undone :
    (∀ instruction : Instruction, instruction.WellShaped → instruction.isLabel = false →
        (∃ bytes, instruction.encode = .ok bytes ∧ bytes.length = instruction.length
          ∧ ∀ tail, Instruction.decode (bytes ++ tail) = .ok instruction.wrapped)
        ∧ (∀ operand ∈ instruction.operands, ∀ value, operand.wrapped.value = value
          ↔ operand.format.holds value = true
            ∧ value ≡ operand.value [ZMOD 2 ^ operand.format.width])
        ∧ (instruction.InRange → instruction.wrapped = instruction))
      ∧ (∀ script : Script,
        (∀ instruction ∈ script,
          instruction.WellShaped ∧ instruction.InRange ∧ instruction.isLabel = false) →
        ∃ bytes, script.encode = .ok bytes ∧ decode bytes = .ok script)
      ∧ ∀ number, ((∃ bytes, (Instruction.label number).encode = .ok bytes)
          ↔ number ≤ 0x7FFFFFFF)
        ∧ ∀ bytes tail, (Instruction.label number).encode = .ok bytes →
          Instruction.decodeLabel (bytes ++ tail) = .ok (.label number) := by
  refine ⟨fun instruction hshape hlabel => ⟨?_, fun operand hmem value => ?_, ?_⟩,
    fun script => exists_decode_of_wellShaped, fun number => ⟨?_, fun bytes tail h => ?_⟩⟩
  · exact Instruction.exists_decode_of_wellShaped hshape hlabel
  · exact OperandFormat.wrap_eq_iff (hshape.kind_ne_label operand hmem)
      (hshape.width_pos operand hmem)
  · exact hshape.wrapped_eq_self
  · simp only [Instruction.encode_label_eq_ok, exists_and_left, exists_eq', and_true]
  · exact Instruction.decodeLabel_of_encode h tail

/-- Packed banks and coordinates that are out of range on either side, a payload
whose length byte is out of range, and the last label. -/
theorem encode_undone_out_of_range :
    Instruction.WellShaped (.ordinary 0xA8 [.ofKind .bank 0x1F, .ofKind .bank (-2),
        .ofKind .coordX 40000, .ofKind .coordY (-32769)])
      ∧ (∃ bytes, Instruction.encode (.ordinary 0xA8 [.ofKind .bank 0x1F, .ofKind .bank (-2),
            .ofKind .coordX 40000, .ofKind .coordY (-32769)]) = .ok bytes
          ∧ bytes.length = 6
          ∧ ∀ tail, Instruction.decode (bytes ++ tail) = .ok (.ordinary 0xA8 [.ofKind .bank 15,
            .ofKind .bank 14, .ofKind .coordX (-25536), .ofKind .coordY 32767]))
      ∧ Instruction.WellShaped (.ordinary 0x1C [.ofKind .unknown (-1), .raw 0, .raw 0, .raw 0,
        .ofKind .unknown 0x102, .raw 7, .raw 8])
      ∧ (∃ bytes, Instruction.encode (.ordinary 0x1C [.ofKind .unknown (-1), .raw 0, .raw 0, .raw 0,
            .ofKind .unknown 0x102, .raw 7, .raw 8]) = .ok bytes
          ∧ bytes.length = 8
          ∧ ∀ tail, Instruction.decode (bytes ++ tail) = .ok (.ordinary 0x1C [.raw 255, .raw 0,
            .raw 0, .raw 0, .raw 2, .raw 7, .raw 8]))
      ∧ (∃ bytes, encode [.ordinary 0x10 [.ofKind .shortJump 9], .special 0xF8 [.raw 5, .raw 0xFF]]
            = .ok bytes
          ∧ decode bytes
            = .ok [.ordinary 0x10 [.ofKind .shortJump 9], .special 0xF8 [.raw 5, .raw 0xFF]])
      ∧ (∃ bytes, (Instruction.label 0x7FFFFFFF).encode = .ok bytes)
      ∧ ¬∃ bytes, (Instruction.label 0x80000000).encode = .ok bytes := by
  refine ⟨by decide, (encode_undone.1 _ (by decide) rfl).1, by decide,
    (encode_undone.1 _ (by decide) rfl).1, encode_undone.2.1 _ (by decide),
    (encode_undone.2.2 _).1.mpr (by decide), mt (encode_undone.2.2 _).1.mp (by decide)⟩

end Script

end FieldMap
