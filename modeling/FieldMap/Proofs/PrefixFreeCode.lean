import FieldMap.Proofs.JoinedBytecode

/-!
# Instructions form a prefix-free code

Reading an instruction asks for the bytes of the instruction one after the other, and
for no byte behind it. So there are two ways to fail only. Either the string ends too
early, which cannot happen to a string of `maxLength` bytes, or it begins with a
self-sized instruction that claims to be shorter than its own header
(`decode_eq_error`). That an operand has no place is an error of the bit layer, but not
one that a row of the table can lead to, since all of its operands have places.

What is cut off inside an instruction is therefore no instruction, but can be completed
to one, and what is not cut off is the same instruction whatever follows it
(`decode_prefix_free`).
-/

namespace FieldMap

open InstructionSet

namespace Instruction

/-! ## Reads that fail -/

/-- **No instruction is longer** than a self-sized one can state. -/
def maxLength : Nat := 255

theorem length_le_maxLength_table :
    ∀ row ∈ table.toList, row.length + maxExtraLength ≤ maxLength := by decide +kernel

/-- A row has room for the bytes that an instruction may state beyond it. -/
theorem length_info_le (id : UInt8) : (info id).length + maxExtraLength ≤ maxLength :=
  length_le_maxLength_table _ (info_mem_table id)

section

variable {item : Item} {offset count : Nat} {bytes : List UInt8} {e : CodecError}

/-- **The error of a string that ends too early**, before the longest instruction
would. -/
def IsCutShort (bytes : List UInt8) (e : CodecError) : Prop :=
  e.IsTruncated ∧ bytes.length < maxLength

theorem isCutShort_of_window (h : window item offset count bytes = .error e)
    (hmax : offset + count ≤ maxLength) : IsCutShort bytes e := by
  refine ⟨⟨_, _, _, _, window_eq_error h⟩, ?_⟩
  by_contra hlong
  obtain ⟨part, hpart⟩ := exists_window_eq_ok item (hmax.trans (Nat.not_lt.mp hlong))
  exact nomatch hpart.symm.trans h

theorem isCutShort_of_byteOf (h : byteOf item offset bytes = .error e) (hmax : offset < maxLength) :
    IsCutShort bytes e := by
  refine ⟨⟨_, _, _, _, byteOf_eq_error h⟩, ?_⟩
  by_contra hlong
  have hbyte := List.getElem?_eq_getElem (hmax.trans_le (Nat.not_lt.mp hlong))
  exact nomatch (byteOf_eq_ok.mpr hbyte).symm.trans h

/-! ## The forms of an instruction -/

theorem isCutShort_of_decodeSpecial (h : decodeSpecial bytes = .error e) : IsCutShort bytes e := by
  unfold decodeSpecial at h
  obtain hsub | ⟨sub, -, h⟩ := Except.bind_eq_error.mp h
  · exact isCutShort_of_byteOf hsub (by decide)
  · have hpayload : specialPayloadLength sub ≤ 2 := by
      unfold specialPayloadLength
      split_ifs <;> decide
    exact isCutShort_of_window (Except.bind_pure_eq_error.mp h)
      ((Nat.add_le_add_left hpayload 2).trans (by decide))

/-- **A self-sized instruction** can also claim to be shorter than its header. -/
theorem decodeKawai_eq_error (h : decodeKawai bytes = .error e) :
    IsCutShort bytes e
      ∨ ∃ stated, bytes[1]? = some stated ∧ stated.toNat < kawaiHeaderLength
        ∧ e = .wrongSize .kawaiInstruction kawaiHeaderLength stated.toNat := by
  unfold decodeKawai at h
  obtain hstated | ⟨stated, hstated, h⟩ := Except.bind_eq_error.mp h
  · exact .inl (isCutShort_of_byteOf hstated (by decide))
  split_ifs at h with hshort
  · exact .inr ⟨stated, byteOf_eq_ok.mp hstated, hshort, (Except.error.inj h).symm⟩
  · obtain hsub | ⟨sub, -, h⟩ := Except.bind_eq_error.mp h
    · exact .inl (isCutShort_of_byteOf hsub (by decide))
    · refine .inl (isCutShort_of_window (Except.bind_pure_eq_error.mp h) ?_)
      have hlt := stated.toNat_lt
      show kawaiHeaderLength + (stated.toNat - kawaiHeaderLength) ≤ 255
      omega

/-- **The operands of a row can be read** from as many bytes as the row is long. -/
theorem exists_readOperands_of_row {id : UInt8} {body : List UInt8}
    (hkinds : ¬(info id).kinds.isEmpty = true) (hlen : body.length = (info id).length) :
    ∃ operands, readOperands body 8 (info id).formats = .ok operands := by
  obtain ⟨hpos, hexact, -⟩ := isExact_info id
  have hrow : (info id).bitLength = 8 * ((info id).length - 1) :=
    hexact.resolve_left fun hnil => hkinds (by rw [hnil]; rfl)
  have hwidths : ((info id).formats.map OperandFormat.width).sum = (info id).bitLength := by
    rw [InstructionInfo.formats, List.map_map]
    rfl
  refine exists_readOperands_eq_ok (havePlaces_table _ (info_mem_table id)) ?_
  rw [hwidths, hrow, hlen]
  unfold BitPlace.span
  omega

theorem isCutShort_of_decodeOrdinary {id : UInt8} (h : decodeOrdinary id bytes = .error e) :
    IsCutShort bytes e := by
  have hrow := length_info_le id
  unfold decodeOrdinary at h
  split_ifs at h with hkinds
  · obtain hextra | ⟨extra, hextra, h⟩ := Except.bind_eq_error.mp h
    · unfold extraLength at hextra
      split_ifs at hextra
      exact isCutShort_of_byteOf (Except.map_eq_error.mp hextra) (by decide)
    · have hmax : extra ≤ maxExtraLength := by
        unfold extraLength at hextra
        split_ifs at hextra
        · obtain ⟨size, -, rfl⟩ := Except.map_eq_ok.mp hextra
          exact Nat.min_le_right ..
        · exact Except.ok.inj hextra ▸ Nat.zero_le _
      have hpos := (isExact_info id).1
      exact isCutShort_of_window (Except.bind_pure_eq_error.mp h) (by omega)
  · obtain hbody | ⟨body, hbody, h⟩ := Except.bind_eq_error.mp h
    · exact isCutShort_of_window hbody (by omega)
    · obtain ⟨operands, hoperands⟩ := exists_readOperands_of_row hkinds (window_eq_ok.mp hbody).2
      exact nomatch hoperands.symm.trans (Except.bind_pure_eq_error.mp h)

/-! ## Every instruction -/

/-- **Why an instruction cannot be read**: the string ends too early, or it begins with
a self-sized instruction that claims to be shorter than its header. -/
theorem decode_eq_error (h : decode bytes = .error e) :
    IsCutShort bytes e
      ∨ ∃ stated rest, bytes = kawaiId :: stated :: rest ∧ stated.toNat < kawaiHeaderLength
        ∧ e = .wrongSize .kawaiInstruction kawaiHeaderLength stated.toNat := by
  unfold decode at h
  obtain hid | ⟨id, hid, h⟩ := Except.bind_eq_error.mp h
  · exact .inl (isCutShort_of_byteOf hid (by decide))
  split_ifs at h with hspecial hkawai
  · exact .inl (isCutShort_of_decodeSpecial h)
  · refine (decodeKawai_eq_error h).imp_right fun ⟨stated, hstated, hshort, he⟩ => ?_
    have hfirst : bytes[0]? = some kawaiId := hkawai ▸ byteOf_eq_ok.mp hid
    match bytes, hfirst, hstated with
    | first :: second :: rest, hfirst, hstated =>
      rw [List.getElem?_cons_zero, Option.some.injEq] at hfirst
      rw [List.getElem?_cons_succ, List.getElem?_cons_zero, Option.some.injEq] at hstated
      exact ⟨stated, rest, by rw [hfirst, hstated], hshort, he⟩
  · exact .inl (isCutShort_of_decodeOrdinary h)

/-- A self-sized instruction that claims to be shorter than its header cannot be read. -/
theorem decode_kawai_of_lt {stated : UInt8} (h : stated.toNat < kawaiHeaderLength)
    (rest : List UInt8) :
    decode (kawaiId :: stated :: rest)
      = .error (.wrongSize .kawaiInstruction kawaiHeaderLength stated.toNat) := by
  show (if stated.toNat < kawaiHeaderLength then _ else _) = _
  rw [if_pos h]

end

/-- **A string that ends too early can be completed**: behind bytes of ones, whatever
lengths it states are there. -/
theorem exists_decode_append {bytes : List UInt8} {e : CodecError} (h : decode bytes = .error e)
    (hcause : e.IsTruncated) : ∃ extension instruction, decode (bytes ++ extension) = .ok instruction := by
  refine ⟨List.replicate maxLength 0xFF, ?_⟩
  cases hlong : decode (bytes ++ List.replicate maxLength 0xFF) with
  | ok instruction => exact ⟨instruction, rfl⟩
  | error fault =>
    obtain ⟨-, hlt⟩ | ⟨stated, rest, hbytes, hshort, -⟩ := decode_eq_error hlong
    · rw [List.length_append, List.length_replicate] at hlt
      exact absurd hlt (by omega)
    · -- the claim is made by the string itself, which then fails for another reason
      match bytes, h, hbytes with
      | [], _, hbytes => exact absurd (List.cons.inj hbytes).1 (by decide)
      | [first], _, hbytes =>
        obtain ⟨rfl, -⟩ := List.cons.inj (List.cons.inj hbytes).2
        exact absurd hshort (by decide)
      | first :: second :: tail, h, hbytes =>
        obtain ⟨rfl, hrest⟩ := List.cons.inj hbytes
        obtain ⟨rfl, -⟩ := List.cons.inj hrest
        obtain ⟨item, offset, needed, available, rfl⟩ := hcause
        exact nomatch (decode_kawai_of_lt hshort tail).symm.trans h

/-- **A part of an instruction is no instruction**, only the beginning of one. -/
theorem isTruncated_of_take {bytes : List UInt8} {instruction : Instruction}
    (h : decode bytes = .ok instruction) {count : Nat} (hcount : count < instruction.length) :
    ∃ e, decode (bytes.take count) = .error e ∧ e.IsTruncated := by
  cases hpart : decode (bytes.take count) with
  | ok part =>
    -- the whole would be the instruction that was found in its part
    have hwhole := decode_append hpart (bytes.drop count)
    rw [List.take_append_drop, h, Except.ok.injEq] at hwhole
    have hle := (reads_of_decode hpart).length_le
    rw [← hwhole] at hle
    have hlen := List.length_take_le count bytes
    omega
  | error e =>
    refine ⟨e, rfl, ?_⟩
    obtain ⟨hcause, -⟩ | ⟨stated, rest, hbytes, hshort, -⟩ := decode_eq_error hpart
    · exact hcause
    · have hwhole := decode_kawai_of_lt hshort (rest ++ bytes.drop count)
      rw [← List.cons_append, ← List.cons_append, ← hbytes, List.take_append_drop, h] at hwhole
      exact nomatch hwhole

/-- **Instructions form a prefix-free code**, and reading one fails for lack of bytes
only. If some bytes begin with an instruction, then every shorter part of that
instruction ends too early, and the bytes of the instruction are read as the same
instruction in front of any others. If they begin with none, then either they are a
self-sized instruction that claims to be shorter than its header, or they end too early
and go on as an instruction in some string. Operands are never out of place. -/
theorem decode_prefix_free (bytes : List UInt8) :
    (∀ instruction, decode bytes = .ok instruction →
        (∀ count < instruction.length,
          ∃ e, decode (bytes.take count) = .error e ∧ e.IsTruncated)
        ∧ ∀ tail, decode (bytes.take instruction.length ++ tail) = .ok instruction)
      ∧ (∀ e, decode bytes = .error e →
        (∃ stated rest, bytes = 0x28 :: stated :: rest ∧ stated < 3
            ∧ e = .wrongSize .kawaiInstruction 3 stated.toNat)
          ∨ e.IsTruncated
            ∧ ∃ extension instruction, decode (bytes ++ extension) = .ok instruction)
      ∧ ∀ bitOffset width, decode bytes ≠ .error (.misaligned bitOffset width) := by
  refine ⟨fun instruction h => ⟨fun count => isTruncated_of_take h, decode_take_append h⟩,
    fun e h => ?_, fun bitOffset width h => ?_⟩
  · obtain ⟨hcause, -⟩ | ⟨stated, rest, hbytes, hshort, he⟩ := decode_eq_error h
    · exact .inr ⟨hcause, exists_decode_append h hcause⟩
    · exact .inl ⟨stated, rest, hbytes, UInt8.lt_iff_toNat_lt.mpr hshort, he⟩
  · obtain ⟨⟨_, _, _, _, he⟩, -⟩ | ⟨_, _, _, _, he⟩ := decode_eq_error h
    · exact nomatch he
    · exact nomatch he

/-- An instruction that states the number of its bytes at its fifth, cut off in front of
that byte; and a self-sized one that claims to be shorter than its header. -/
theorem decode_prefix_free_stated :
    decode [0x1C, 1, 2, 3, 4, 1, 9, 7]
        = .ok (.ordinary 0x1C [.raw 1, .raw 2, .raw 3, .raw 4, .raw 1, .raw 9])
      ∧ (∃ e, decode [0x1C, 1, 2, 3, 4] = .error e ∧ e.IsTruncated)
      ∧ (∀ tail, decode ([0x1C, 1, 2, 3, 4, 1, 9] ++ tail)
        = .ok (.ordinary 0x1C [.raw 1, .raw 2, .raw 3, .raw 4, .raw 1, .raw 9]))
      ∧ decode [0x28, 2, 5] = .error (.wrongSize .kawaiInstruction 3 2) := by
  have hread : decode [0x1C, 1, 2, 3, 4, 1, 9, 7]
      = .ok (.ordinary 0x1C [.raw 1, .raw 2, .raw 3, .raw 4, .raw 1, .raw 9]) := by decide +kernel
  obtain ⟨hpart, htail⟩ := (decode_prefix_free _).1 _ hread
  exact ⟨hread, hpart 5 (by decide), htail, by decide +kernel⟩

end Instruction

end FieldMap
