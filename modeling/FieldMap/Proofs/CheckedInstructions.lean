import FieldMap.Proofs.Printable
import FieldMap.Proofs.RoundTrip

/-!
# What the reader of a listing checks

Every instruction that is read from a line has the shape that its id asks for,
and every operand of it but the distance of a jump is in range. That is what
the reader checks (`Instruction.Checked`), and each of the forms of a line
checks it in its own way: operands with kinds one by one, raw bytes by being
bytes, and their number by the row, by the sub-instruction or by the length
byte that will have to state it.

What is left is the distance of a jump. No row has two of them, so an
instruction is in range as soon as the one that its jump holds is
(`Checked.inRange`).
-/

namespace FieldMap

open InstructionSet

/-- **What is known of an instruction** that was read from a line. -/
structure Instruction.Checked (instruction : Instruction) : Prop where
  wellShaped : instruction.WellShaped
  holds : ∀ operand ∈ instruction.operands,
    operand.format.kind.isJump = false → operand.format.holds operand.value = true

namespace Instruction

/-! ## The forms of a line -/

theorem checked_of_raw {instruction : Instruction} {bytes : List UInt8}
    (hshape : instruction.WellShaped) (hoperands : instruction.operands = bytes.map Operand.raw) :
    instruction.Checked :=
  ⟨hshape, fun operand hmem _ => inRange_map_raw bytes operand (hoperands ▸ hmem)⟩

theorem checked_label (number : Nat) : (label number).Checked :=
  ⟨trivial, fun _ hmem => absurd hmem List.not_mem_nil⟩

/-- A payload that is filled up or cut off has the length that it must have. -/
theorem checked_ofSpecial (sub : UInt8) (payload : List UInt8) :
    (ofSpecial sub payload).Checked := by
  refine checked_of_raw (areRaw_map_raw ?_) rfl
  rw [List.length_take, List.length_append, List.length_replicate]
  omega

theorem checked_of_ofKawai {sub : UInt8} {payload : List UInt8} {instruction : Instruction}
    (h : ofKawai sub payload = .ok instruction) : instruction.Checked := by
  unfold ofKawai at h
  split_ifs at h with hlen
  rw [← Except.ok.inj h]
  refine checked_of_raw ⟨?_, ?_⟩ rfl
  · rwa [List.length_map]
  · exact areRaw_map_raw (List.length_map _).symm

end Instruction

namespace Listing

theorem expectCount_eq_ok {mnemonic : String} {expected : Nat} {arguments : List (List Char)} :
    expectCount mnemonic expected arguments = .ok () ↔ arguments.length = expected := by
  unfold expectCount
  split_ifs with h
  · exact iff_of_true rfl h
  · exact iff_of_false (fun heq => nomatch heq) h

/-- **An operand that is read** has the format that was asked for, and is in range
unless it is the distance of a jump. -/
theorem of_readArgument {format : OperandFormat} {token : List Char} {operand : Operand}
    (h : readArgument (format, token) = .ok operand) :
    operand.format = format
      ∧ (format.kind.isJump = false → format.holds operand.value = true) := by
  unfold readArgument at h
  obtain ⟨value, -, h⟩ := Except.bind_eq_ok.mp h
  split_ifs at h with hfits
  rw [← Except.ok.inj h]
  refine ⟨rfl, fun hjump => ?_⟩
  rwa [hjump, Bool.false_or] at hfits

theorem checked_of_readLabel {mnemonic : String} {arguments : List (List Char)}
    {instruction : Instruction} (h : readLabel mnemonic arguments = .ok instruction) :
    instruction.Checked := by
  unfold readLabel at h
  split at h
  · obtain ⟨value, -, h⟩ := Except.bind_eq_ok.mp h
    split_ifs at h
    exact Except.ok.inj h ▸ Instruction.checked_label _
  · exact nomatch h

theorem checked_of_readSpecial {mnemonic : String} {arguments : List (List Char)}
    {instruction : Instruction} (h : readSpecial mnemonic arguments = .ok instruction) :
    instruction.Checked := by
  unfold readSpecial at h
  obtain ⟨⟨sub, payload⟩, -, h⟩ := Except.bind_eq_ok.mp h
  obtain ⟨-, -, h⟩ := Except.bind_eq_ok.mp h
  exact Except.ok.inj h ▸ Instruction.checked_ofSpecial sub payload

theorem checked_of_readKawai {mnemonic : String} {arguments : List (List Char)}
    {instruction : Instruction} (h : readKawai mnemonic arguments = .ok instruction) :
    instruction.Checked := by
  unfold readKawai at h
  obtain ⟨⟨sub, payload⟩, -, h⟩ := Except.bind_eq_ok.mp h
  exact Instruction.checked_of_ofKawai (Except.mapError_eq_ok.mp h)

theorem checked_of_readOrdinary {mnemonic : String} {id : UInt8} {arguments : List (List Char)}
    {instruction : Instruction} (hspecial : id ≠ specialId) (hkawai : id ≠ kawaiId)
    (h : readOrdinary mnemonic id arguments = .ok instruction) : instruction.Checked := by
  unfold readOrdinary at h
  split_ifs at h with hkinds
  · -- raw bytes, as many as there are arguments
    obtain ⟨bytes, hbytes, h⟩ := Except.bind_eq_ok.mp h
    obtain ⟨⟨⟩, hcount, h⟩ := Except.bind_eq_ok.mp h
    have hlen : bytes.length = rawLength id (bytes.map Operand.raw) := by
      rw [← (List.mapM_eq_ok.mp hbytes).length_eq, expectCount_eq_ok.mp hcount, rawCount_eq_rawLength]
    rw [← Except.ok.inj h]
    refine Instruction.checked_of_raw ⟨hspecial, hkawai, ?_⟩ rfl
    rw [if_pos hkinds]
    exact areRaw_map_raw hlen
  · -- operands with kinds, each beside its format
    obtain ⟨⟨⟩, hcount, h⟩ := Except.bind_eq_ok.mp h
    obtain ⟨operands, hoperands, h⟩ := Except.bind_eq_ok.mp h
    have hlen : (info id).formats.length ≤ arguments.length := by
      rw [expectCount_eq_ok.mp hcount, InstructionInfo.formats, List.length_map]
    have hformats : operands.map Operand.format = (info id).formats := by
      rw [List.map_of_mapM_eq_ok (g := Prod.fst) hoperands
        (fun argument operand hread => (of_readArgument hread).1), List.map_fst_zip hlen]
    rw [← Except.ok.inj h]
    refine ⟨⟨hspecial, hkawai, ?_⟩, fun operand hmem hjump => ?_⟩
    · rwa [if_neg hkinds]
    · obtain ⟨argument, -, hread⟩ := List.exists_of_mapM_eq_ok hoperands operand hmem
      obtain ⟨hformat, hholds⟩ := of_readArgument hread
      rw [hformat] at hjump ⊢
      exact hholds hjump

/-- **An id that is found by its mnemonic** has that mnemonic. -/
theorem capitals_of_idOf? {mnemonic : List Char} {id : UInt8} (h : idOf? mnemonic = some id) :
    capitals (info id) = mnemonic.map Char.toUpper := by
  unfold idOf? at h
  obtain ⟨index, hindex, rfl⟩ := Option.map_eq_some_iff.mp h
  obtain ⟨hlt, hname, -⟩ := Array.findIdx?_eq_some_iff_getElem.mp hindex
  have hrow : info (UInt8.ofNat index) = table[index] := by
    have hbyte : (UInt8.ofNat index).toNat = index := by
      rw [size_table] at hlt
      rw [UInt8.toNat_ofNat']
      omega
    unfold info
    simp only [hbyte]
  rw [hrow]
  exact beq_iff_eq.mp hname

/-- **What is read from the words of a line is checked.** -/
theorem checked_of_readInstruction {mnemonic : List Char} {arguments : List (List Char)}
    {instruction : Instruction} (h : readInstruction mnemonic arguments = .ok instruction) :
    instruction.Checked := by
  unfold readInstruction at h
  dsimp only at h
  split_ifs at h with hlabel hspecial hkawai
  · exact checked_of_readLabel h
  · exact checked_of_readSpecial h
  · exact checked_of_readKawai h
  · split at h
    · exact nomatch h
    · rename_i id hid
      -- the two ids with sub-instructions are not found by a name other than theirs
      have hname : ∀ other name, String.ofList (capitals (info other)) = name →
          String.ofList (mnemonic.map Char.toUpper) ≠ name → id ≠ other :=
        fun other name hcapitals hne hother => hne (by
          rw [← capitals_of_idOf? hid, hother, hcapitals])
      exact checked_of_readOrdinary (hname specialId "SPECIAL" (by decide +kernel) hspecial)
        (hname kawaiId "KAWAI" (by decide +kernel) hkawai) h

end Listing

/-! ## The distance of a jump -/

/-- **No row has two distances.** -/
theorem pairwise_isJump_table : ∀ row ∈ table.toList,
    row.kinds.Pairwise fun a b => a.isJump = false ∨ b.isJump = false := by
  decide +kernel

namespace Instruction

variable {instruction : Instruction} {index : Nat} {number value : Int}

/-- **The only operand that is the distance of a jump** is the one that the jump
holds. -/
theorem WellShaped.jumpIndex?_eq_some (h : instruction.WellShaped) {operand : Operand}
    (hget : instruction.operands[index]? = some operand)
    (hjump : operand.format.kind.isJump = true) : instruction.jumpIndex? = some index := by
  obtain ⟨id, operands, rfl, -, -, -, hformats⟩ :=
    h.exists_ordinary_of_isJump (List.mem_of_getElem? hget) hjump
  have hkinds : operands.map (fun operand => operand.format.kind) = (info id).kinds := by
    have hmap := congrArg (List.map OperandFormat.kind) hformats
    rw [List.map_map, InstructionInfo.formats, List.map_map] at hmap
    exact hmap.trans (List.map_id' _)
  have hpair := pairwise_isJump_table _ (info_mem_table id)
  rw [← hkinds, List.pairwise_map, List.pairwise_iff_getElem] at hpair
  obtain ⟨hlt, heq⟩ := List.getElem?_eq_some_iff.mp hget
  refine List.findIdx?_eq_some_iff_getElem.mpr ⟨hlt, ?_, fun i hi hother => ?_⟩
  · exact heq ▸ hjump
  · rcases hpair i index (hi.trans hlt) hlt hi with hfirst | hsecond
    · exact absurd hother (Bool.eq_false_iff.mp hfirst)
    · exact absurd (heq ▸ hjump) (Bool.eq_false_iff.mp hsecond)

/-- **A checked instruction is in range** if the distance that it holds is. -/
theorem Checked.inRange (h : instruction.Checked)
    (hdistance : ∀ index operand, instruction.jumpIndex? = some index →
      instruction.operands[index]? = some operand → operand.format.holds operand.value = true) :
    instruction.InRange := by
  intro operand hmem
  cases hjump : operand.format.kind.isJump with
  | true =>
    obtain ⟨index, hget⟩ := List.mem_iff_getElem?.mp hmem
    exact hdistance index operand (h.wellShaped.jumpIndex?_eq_some hget hjump) hget
  | false => exact h.holds operand hmem hjump

/-- A jump that is given another distance is still checked. -/
theorem Checked.setValue (h : instruction.Checked)
    (hjump : instruction.jumpValue? = some (index, number)) (value : Int) :
    (instruction.setValue index value).Checked := by
  refine ⟨h.wellShaped.setValue hjump value, fun operand hmem hkind => ?_⟩
  obtain ⟨jump, kind, hget, -, hformat, hisJump⟩ := jump_format h.wellShaped hjump
  rcases mem_operands_setValue hmem with hmem | ⟨old, hold, rfl⟩
  · exact h.holds operand hmem hkind
  · rw [← Option.some.inj (hget.symm.trans hold), hformat] at hkind
    exact absurd hisJump (Bool.eq_false_iff.mp hkind)

end Instruction

end FieldMap
