import FieldMap.Proofs.PrintedLines

/-!
# Instructions that a listing can hold

An instruction that is written to a listing and read again is the same
instruction if the listing can hold it, and that is a question of its shape
and of its values (`Instruction.Printable`). Operands have to be in range,
since the reader refuses any other. The operand of a jump is the exception:
it is not checked before the labels are resolved, and any number of 64 bits
can stand there. Labels are the exception on the other side: their numbers
take up 32 bits, and the reader wants them below `2 ^ 31`.
-/

namespace FieldMap

open InstructionSet FieldMap.Text

/-- **An operand that a listing can hold.** -/
def Operand.Printable (operand : Operand) : Prop :=
  if operand.format.kind.isJump then operand.value.natAbs ≤ 2 ^ 63 - 1
  else operand.format.holds operand.value = true

/-- **An instruction that a listing can hold.** -/
structure Instruction.Printable (instruction : Instruction) : Prop where
  wellShaped : instruction.WellShaped
  operands : ∀ operand ∈ instruction.operands, operand.Printable
  label : ∀ number, instruction = .label number → number < 2 ^ 31

/-! ## Single words -/

namespace Operand

theorem Printable.holds {operand : Operand} (h : operand.Printable)
    (hjump : operand.format.kind.isJump = false) :
    operand.format.holds operand.value = true := by
  unfold Printable at h
  rwa [hjump, if_neg Bool.false_ne_true] at h

/-- The range of a kind is far from the ends of 64 bits. -/
theorem range_bounds (kind : OperandKind) :
    -2 ^ 32 ≤ kind.format.min ∧ kind.format.max ≤ 2 ^ 32 := by
  cases kind <;> decide

theorem natAbs_le_of_holds {operand : Operand} {kind : OperandKind}
    (hformat : operand.format = kind.format)
    (h : operand.format.holds operand.value = true) : operand.value.natAbs ≤ 2 ^ 63 - 1 := by
  obtain ⟨hmin, hmax⟩ := OperandFormat.holds_iff.mp h
  obtain ⟨hlow, hhigh⟩ := range_bounds kind
  rw [hformat] at hmin hmax
  omega

/-- What a listing can hold is a number of 64 bits. -/
theorem Printable.natAbs_le {operand : Operand} (h : operand.Printable) {kind : OperandKind}
    (hformat : operand.format = kind.format) : operand.value.natAbs ≤ 2 ^ 63 - 1 := by
  cases hjump : operand.format.kind.isJump with
  | true =>
    unfold Printable at h
    rwa [hjump, if_pos rfl] at h
  | false => exact natAbs_le_of_holds hformat (h.holds hjump)

/-- **A listing can hold every operand in range.** -/
theorem printable_of_holds {operand : Operand} {kind : OperandKind}
    (hformat : operand.format = kind.format)
    (h : operand.format.holds operand.value = true) : operand.Printable := by
  unfold Printable
  split_ifs
  · exact natAbs_le_of_holds hformat h
  · exact h

end Operand

namespace Listing

/-- **An operand is read from its word.** -/
theorem readArgument_eq_ok {operand : Operand} (h : operand.Printable) {kind : OperandKind}
    (hformat : operand.format = kind.format) :
    readArgument (operand.format, (signedDecimal operand.value).toList) = .ok operand := by
  unfold readArgument
  dsimp only
  rw [readInteger_signedDecimal (h.natAbs_le hformat), Except.ok_bind]
  refine if_pos ?_
  rw [Bool.or_eq_true]
  cases hjump : operand.format.kind.isJump with
  | true => exact .inl rfl
  | false => exact .inr (h.holds hjump)

theorem readByte_eq_ok {role : ArgumentRole} {token : List Char} {b : UInt8}
    (h : readInteger token = .ok (b.toNat : Int)) : readByte role token = .ok b := by
  have hb := b.toNat_lt
  unfold readByte
  rw [h, Except.ok_bind, if_pos (by omega), Int.toNat_natCast, UInt8.ofNat_toNat]

theorem readByte_hexId (role : ArgumentRole) (b : UInt8) :
    readByte role (hexId 2 b.toNat).toList = .ok b := by
  have hb := b.toNat_lt
  exact readByte_eq_ok (readInteger_hexId 2 (by omega))

theorem readByte_signedDecimal (role : ArgumentRole) (b : UInt8) :
    readByte role (signedDecimal (b.toNat : Int)).toList = .ok b := by
  have hb := b.toNat_lt
  exact readByte_eq_ok (readInteger_signedDecimal (by omega))

/-- **Raw bytes are read from their words.** -/
theorem mapM_readByte_tokens (role : ArgumentRole) (bytes : List UInt8) :
    (Operand.tokens (bytes.map Operand.raw)).mapM (readByte role) = .ok bytes := by
  rw [List.mapM_eq_ok, Operand.tokens, List.map_map, List.forall₂_map_left_iff, List.forall₂_same]
  exact fun b _ => readByte_signedDecimal role b

theorem length_tokens (operands : List Operand) :
    (Operand.tokens operands).length = operands.length := List.length_map _

/-! ## Whole instructions -/

theorem readSub_eq_ok (mnemonic : String) (sub : UInt8) (bytes : List UInt8) :
    readSub mnemonic ((hexId 2 sub.toNat).toList :: Operand.tokens (bytes.map Operand.raw))
      = .ok (sub, bytes) := by
  unfold readSub
  dsimp only
  rw [readByte_hexId, Except.ok_bind, mapM_readByte_tokens]
  rfl

theorem readSpecial_eq_ok (mnemonic : String) {sub : UInt8} {bytes : List UInt8}
    (hlen : bytes.length = specialPayloadLength sub) :
    readSpecial mnemonic ((hexId 2 sub.toNat).toList :: Operand.tokens (bytes.map Operand.raw))
      = .ok (.special sub (bytes.map Operand.raw)) := by
  unfold readSpecial expectCount
  rw [readSub_eq_ok, Except.ok_bind]
  dsimp only
  rw [List.length_cons, length_tokens, List.length_map, hlen, if_pos rfl, Except.ok_bind]
  unfold Instruction.ofSpecial
  dsimp only
  rw [← hlen, List.take_left]
  rfl

theorem readKawai_eq_ok (mnemonic : String) {sub : UInt8} {bytes : List UInt8}
    (hlen : bytes.length ≤ kawaiMaxPayload) :
    readKawai mnemonic ((hexId 2 sub.toNat).toList :: Operand.tokens (bytes.map Operand.raw))
      = .ok (.kawai sub (bytes.map Operand.raw)) := by
  unfold readKawai
  rw [readSub_eq_ok, Except.ok_bind]
  dsimp only
  unfold Instruction.ofKawai
  rw [if_pos hlen]
  rfl

/-- What the reader takes for the number of raw bytes is the one that the
instruction has. -/
theorem rawCount_eq_rawLength (id : UInt8) (bytes : List UInt8) :
    rawCount id bytes = rawLength id (bytes.map Operand.raw) := by
  rw [rawLength_map_raw]
  unfold rawCount
  cases bytes[4]? <;> rfl

theorem readOrdinary_raw (mnemonic : String) {id : UInt8} {bytes : List UInt8}
    (hkinds : (info id).kinds.isEmpty = true)
    (hlen : bytes.length = rawLength id (bytes.map Operand.raw)) :
    readOrdinary mnemonic id (Operand.tokens (bytes.map Operand.raw))
      = .ok (.ordinary id (bytes.map Operand.raw)) := by
  unfold readOrdinary expectCount
  rw [if_pos hkinds, mapM_readByte_tokens, Except.ok_bind, length_tokens, List.length_map,
    rawCount_eq_rawLength, if_pos hlen]
  rfl

theorem readOrdinary_typed (mnemonic : String) {id : UInt8} {operands : List Operand}
    (hkinds : (info id).kinds.isEmpty = false)
    (hformats : operands.map Operand.format = (info id).formats)
    (h : ∀ operand ∈ operands, operand.Printable) :
    readOrdinary mnemonic id (Operand.tokens operands) = .ok (.ordinary id operands) := by
  have hlen : operands.length = (info id).kinds.length := by
    have hmap := congrArg List.length hformats
    rwa [List.length_map, InstructionInfo.formats, List.length_map] at hmap
  have hread : ((info id).formats.zip (Operand.tokens operands)).mapM readArgument
      = .ok operands := by
    rw [← hformats, Operand.tokens, List.zip_map', List.mapM_eq_ok, List.forall₂_map_left_iff,
      List.forall₂_same]
    intro operand hmem
    have hformat : operand.format ∈ (info id).formats := hformats ▸ List.mem_map_of_mem hmem
    obtain ⟨kind, -, hkind⟩ := List.mem_map.mp hformat
    exact readArgument_eq_ok (h operand hmem) hkind.symm
  unfold readOrdinary expectCount
  rw [if_neg (Bool.eq_false_iff.mp hkinds), length_tokens, hlen, if_pos rfl, Except.ok_bind, hread]
  rfl

theorem readLabel_eq_ok (mnemonic : String) {number : Nat} (h : number < 2 ^ 31) :
    readLabel mnemonic [(decimal number).toList] = .ok (.label number) := by
  unfold readLabel
  dsimp only
  rw [readInteger_decimal, if_pos (by omega), Except.ok_bind, if_pos ?_, Int.toNat_natCast]
  rw [OperandFormat.holds_iff]
  show (0 : Int) ≤ number ∧ (number : Int) ≤ 2 ^ 31 - 1
  omega

/-- **A label with a larger number is refused.** -/
theorem lt_of_readLabel {mnemonic : String} {number : Nat} {instruction : Instruction}
    (h : readLabel mnemonic [(decimal number).toList] = .ok instruction) : number < 2 ^ 31 := by
  unfold readLabel at h
  dsimp only at h
  obtain ⟨value, hvalue, h⟩ := Except.bind_eq_ok.mp h
  rw [readInteger_decimal] at hvalue
  split_ifs at hvalue
  split_ifs at h with hrange
  rw [← Except.ok.inj hvalue] at hrange
  have hmax : (number : Int) ≤ 2 ^ 31 - 1 := (OperandFormat.holds_iff.mp hrange).2
  omega

/-! ## Which reader a mnemonic calls for -/

theorem readInstruction_label (arguments : List (List Char)) :
    readInstruction "LABEL".toList arguments = readLabel "LABEL" arguments := by
  have hname : String.ofList ("LABEL".toList.map Char.toUpper) = "LABEL" := by decide +kernel
  unfold readInstruction
  dsimp only
  rw [hname, if_pos rfl]

theorem readInstruction_special (arguments : List (List Char)) :
    readInstruction "SPECIAL".toList arguments = readSpecial "SPECIAL" arguments := by
  have hname : String.ofList ("SPECIAL".toList.map Char.toUpper) = "SPECIAL" := by decide +kernel
  unfold readInstruction
  dsimp only
  rw [hname, if_neg (by decide), if_pos rfl]

theorem readInstruction_kawai (arguments : List (List Char)) :
    readInstruction "KAWAI".toList arguments = readKawai "KAWAI" arguments := by
  have hname : String.ofList ("KAWAI".toList.map Char.toUpper) = "KAWAI" := by decide +kernel
  unfold readInstruction
  dsimp only
  rw [hname, if_neg (by decide), if_neg (by decide), if_pos rfl]

/-- The three names that are no row of their own stand for no ordinary
instruction. -/
theorem readInstruction_ordinary {id : UInt8} (hspecial : id ≠ specialId) (hkawai : id ≠ kawaiId)
    (arguments : List (List Char)) :
    readInstruction (info id).mnemonic.toList arguments
      = readOrdinary (String.ofList (capitals (info id))) id arguments := by
  have hne : ∀ row text, capitals row = text.toList → capitals (info id) ≠ capitals row →
      String.ofList (capitals (info id)) ≠ text := fun row text hrow hcapitals heq =>
    hcapitals (by rw [hrow, ← heq, String.toList_ofList])
  have hlabel := hne labelInfo "LABEL" (by decide +kernel) (capitals_ne_label id)
  have hspecial' := hne (info specialId) "SPECIAL" (by decide +kernel)
    (capitals_injective.ne hspecial)
  have hkawai' := hne (info kawaiId) "KAWAI" (by decide +kernel) (capitals_injective.ne hkawai)
  unfold readInstruction
  dsimp only
  show (if String.ofList (capitals (info id)) = "LABEL" then _
    else if String.ofList (capitals (info id)) = "SPECIAL" then _
    else if String.ofList (capitals (info id)) = "KAWAI" then _ else _) = _
  rw [if_neg hlabel, if_neg hspecial', if_neg hkawai', idOf?_mnemonic]
  rfl

/-- Raw operands that a listing can hold are bytes. -/
theorem exists_raw_of_printable {count : Nat} {operands : List Operand}
    (hraw : AreRaw count operands) (h : ∀ operand ∈ operands, operand.Printable) :
    ∃ bytes : List UInt8, bytes.length = count ∧ operands = bytes.map Operand.raw := by
  refine eq_map_raw hraw (fun operand hmem => (h operand hmem).holds ?_)
  rw [hraw.format_eq hmem]
  rfl

/-- **An instruction is read from its words** if a listing can hold it. -/
theorem readInstruction_tokens {instruction : Instruction} (h : instruction.Printable) :
    readInstruction instruction.leadToken instruction.argumentTokens = .ok instruction := by
  obtain ⟨hshape, hoperands, hlabel⟩ := h
  cases instruction with
  | ordinary id operands =>
    obtain ⟨hspecial, hkawai, hformats⟩ := hshape
    refine (readInstruction_ordinary hspecial hkawai _).trans ?_
    cases hkinds : (info id).kinds.isEmpty with
    | true =>
      rw [hkinds, if_pos rfl] at hformats
      obtain ⟨bytes, hlen, rfl⟩ := exists_raw_of_printable hformats hoperands
      exact readOrdinary_raw _ hkinds hlen
    | false =>
      rw [hkinds, if_neg Bool.false_ne_true] at hformats
      exact readOrdinary_typed _ hkinds hformats hoperands
  | special sub operands =>
    obtain ⟨bytes, hlen, rfl⟩ := exists_raw_of_printable hshape hoperands
    exact (readInstruction_special _).trans (readSpecial_eq_ok _ hlen)
  | kawai sub operands =>
    obtain ⟨bytes, hlen, rfl⟩ := exists_raw_of_printable hshape.2 hoperands
    refine (readInstruction_kawai _).trans (readKawai_eq_ok _ ?_)
    rw [hlen]
    exact hshape.1
  | label number => exact (readInstruction_label _).trans (readLabel_eq_ok _ (hlabel number rfl))

/-- **The line of an instruction** that a listing can hold is read as that
instruction. -/
theorem readLine_of_printable {instruction : Instruction} (h : instruction.Printable) :
    readLine instruction.line.toList = .ok (some instruction) := by
  rw [Instruction.readLine_line, readInstruction_tokens h]
  rfl

theorem lt_of_readLine_label {number : Nat} {read : Option Instruction}
    (h : readLine (Instruction.label number).line.toList = .ok read) : number < 2 ^ 31 := by
  rw [Instruction.readLine_line] at h
  obtain ⟨instruction, hread, -⟩ := Except.map_eq_ok.mp h
  exact lt_of_readLabel ((readInstruction_label _).symm.trans hread)

end Listing

end FieldMap
