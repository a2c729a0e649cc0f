import FieldMap.Proofs.CheckedInstructions
import FieldMap.Proofs.ListingRoundTrip

/-!
# What a listing can be read as

Whatever text is read as a listing, its instructions are checked
(`checked_of_parse`): no line depends on another one, so what holds of a line
holds of all of them.

A listing that was written is read back as the script that was written if and
only if it can hold every instruction (`listing_read_back_iff`). What it cannot
hold is lost on the way: an instruction of another shape or with an operand out
of range is none that the reader gives, a label beyond the bound is refused, and
so is a distance of more than 63 bits, since the reader takes the digits behind
the minus sign for a number of its own.
-/

namespace FieldMap.Listing

open FieldMap.Text InstructionSet

/-! ## Whatever is read is checked -/

theorem checked_of_readLine {line : List Char} {instruction : Instruction}
    (h : readLine line = .ok (some instruction)) : instruction.Checked := by
  unfold readLine at h
  dsimp only at h
  split_ifs at h
  · exact nomatch h
  · split at h
    · exact nomatch h
    · obtain ⟨read, hread, heq⟩ := Except.map_eq_ok.mp h
      exact Option.some.inj heq ▸ checked_of_readInstruction hread

/-- Reading lines keeps what is checked already, and checks what it adds. -/
theorem checked_of_readLines {done script : Script} {number : Nat} {texts : List (List Char)}
    (hdone : ∀ instruction ∈ done, instruction.Checked)
    (h : readLines done number texts = .ok script) :
    ∀ instruction ∈ script, instruction.Checked := by
  induction texts generalizing done number with
  | nil =>
    rw [readLines, Except.ok.injEq] at h
    exact fun instruction hmem => hdone instruction (List.mem_reverse.mp (h ▸ hmem))
  | cons line texts ih =>
    rw [readLines] at h
    cases hline : readLine line with
    | error fault =>
      rw [hline] at h
      cases h
    | ok read =>
      rw [hline] at h
      cases read with
      | none => exact ih hdone h
      | some instruction =>
        exact ih (List.forall_mem_cons.mpr ⟨checked_of_readLine hline, hdone⟩) h

/-- **Every instruction of a listing that is read is checked.** -/
theorem checked_of_parse {text : String} {script : Script} (h : parse text = .ok script) :
    ∀ instruction ∈ script, instruction.Checked :=
  checked_of_readLines (fun _ hmem => absurd hmem List.not_mem_nil) h

/-! ## What is lost when it is written -/

/-- **A number of more than 63 bits** is not read from its decimal form. -/
theorem natAbs_le_of_readInteger {v value : Int}
    (h : readInteger (signedDecimal v).toList = .ok value) : v.natAbs ≤ 2 ^ 63 - 1 := by
  by_contra hlarge
  rcases lt_or_ge v 0 with hneg | hpos
  · have hcomma : ',' ∉ '-' :: Nat.toDigits 10 v.natAbs := fun hmem => by
      rcases List.mem_cons.mp hmem with heq | hmem
      · exact absurd heq (by decide)
      · exact absurd (isPlain_of_mem_toDigits hmem) (by decide)
    rw [toList_signedDecimal_of_neg hneg, readInteger_of_minus hcomma, readUnsigned_toDigits,
      if_neg hlarge] at h
    exact nomatch h
  · rw [toList_signedDecimal_of_nonneg hpos, ← toList_decimal, readInteger_decimal,
      if_neg hlarge] at h
    exact nomatch h

theorem natAbs_le_of_readOrdinary {mnemonic : String} {id : UInt8} {operands : List Operand}
    {instruction : Instruction} (hkinds : ¬(info id).kinds.isEmpty = true)
    (hformats : operands.map Operand.format = (info id).formats)
    (h : readOrdinary mnemonic id (Operand.tokens operands) = .ok instruction) :
    ∀ operand ∈ operands, operand.value.natAbs ≤ 2 ^ 63 - 1 := by
  unfold readOrdinary at h
  rw [if_neg hkinds, ← hformats, Operand.tokens, List.zip_map'] at h
  obtain ⟨-, -, h⟩ := Except.bind_eq_ok.mp h
  obtain ⟨read, hread, -⟩ := Except.bind_eq_ok.mp h
  intro operand hmem
  obtain ⟨result, hresult⟩ := List.exists_of_mem_of_mapM_eq_ok hread _ (List.mem_map_of_mem hmem)
  unfold readArgument at hresult
  obtain ⟨value, hvalue, -⟩ := Except.bind_eq_ok.mp hresult
  exact natAbs_le_of_readInteger hvalue

/-- **The line of a jump** whose distance has more than 63 bits is refused. -/
theorem natAbs_le_of_readLine {instruction : Instruction} {read : Option Instruction}
    (hshape : instruction.WellShaped) (h : readLine instruction.line.toList = .ok read) :
    ∀ operand ∈ instruction.operands, operand.format.kind.isJump = true →
      operand.value.natAbs ≤ 2 ^ 63 - 1 := by
  intro operand hmem hjump
  rw [Instruction.readLine_line] at h
  obtain ⟨result, hread, -⟩ := Except.map_eq_ok.mp h
  obtain ⟨id, operands, rfl, hspecial, hkawai, hkinds, hformats⟩ :=
    hshape.exists_ordinary_of_isJump hmem hjump
  exact natAbs_le_of_readOrdinary hkinds hformats
    ((readInstruction_ordinary hspecial hkawai _).symm.trans hread) operand hmem

/-- **A listing is read back as the script that was written** if and only if it can
hold each of the instructions. -/
theorem listing_read_back_iff (script : Script) :
    parse script.listing = .ok script ↔ ∀ instruction ∈ script, instruction.Printable := by
  refine ⟨fun h instruction hmem => ?_, parse_listing⟩
  have hchecked := checked_of_parse h instruction hmem
  have hline : ∃ read, readLine instruction.line.toList = .ok read := by
    unfold parse at h
    rw [lines_listing] at h
    exact readLine_of_readLines h _ (List.mem_append_left _
      (List.mem_map_of_mem (f := fun instruction => instruction.line.toList) hmem))
  obtain ⟨read, hread⟩ := hline
  refine ⟨hchecked.wellShaped, fun operand hoperand => ?_, fun number hlabel => ?_⟩
  · unfold Operand.Printable
    split_ifs with hjump
    · exact natAbs_le_of_readLine hchecked.wellShaped hread operand hoperand hjump
    · exact hchecked.holds operand hoperand (Bool.eq_false_iff.mpr hjump)
  · exact lt_of_parse h (hlabel ▸ hmem)

end FieldMap.Listing
