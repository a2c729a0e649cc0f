import FieldMap.Listing.Printer
import FieldMap.Proofs.Mnemonics
import FieldMap.Proofs.Numerals

/-!
# The lines of a listing

The line of an instruction is its mnemonic and the values of its operands,
put together as words: `leadToken` and `argumentTokens` are these words, and
`toList_line` says that the line is nothing else. So a line is cut into its
words again, is no comment, and is not cut in two by a line feed, whatever
the instruction is. Reading it is a matter of its words (`readLine_line`).
-/

namespace FieldMap

open InstructionSet FieldMap.Text

/-! ## The words of a line -/

/-- The values of operands as words. -/
def Operand.tokens (operands : List Operand) : List (List Char) :=
  operands.map fun operand => (signedDecimal operand.value).toList

namespace Instruction

/-- The first word of a line. -/
def leadToken : Instruction → List Char
  | ordinary id _ => (info id).mnemonic.toList
  | special _ _ => "SPECIAL".toList
  | kawai _ _ => "KAWAI".toList
  | label _ => "LABEL".toList

/-- The other words of a line. -/
def argumentTokens : Instruction → List (List Char)
  | ordinary _ operands => Operand.tokens operands
  | special sub operands => (hexId 2 sub.toNat).toList :: Operand.tokens operands
  | kawai sub operands => (hexId 2 sub.toNat).toList :: Operand.tokens operands
  | label number => [(decimal number).toList]

theorem toList_arguments (operands : List Operand) :
    (Operand.arguments operands).toList = (Operand.tokens operands).flatMap (' ' :: ·) := by
  unfold Operand.arguments Operand.tokens
  rw [String.toList_join, List.flatMap_map, List.flatMap_map]
  refine congrArg (List.flatMap · operands) (funext fun operand => ?_)
  rw [String.toList_append]
  rfl

/-- A line with a first argument of its own. -/
theorem toList_line_of_lead {lead blank first rest : String} {tokens : List (List Char)}
    (hblank : blank = lead ++ " ") (hrest : rest.toList = tokens.flatMap (' ' :: ·)) :
    (blank ++ first ++ rest).toList = joinWords lead.toList (first.toList :: tokens) := by
  rw [hblank, String.toList_append, String.toList_append, String.toList_append, hrest,
    List.append_assoc, List.append_assoc]
  rfl

/-- **A line is its words**, with a space in front of each but the first. -/
theorem toList_line (instruction : Instruction) :
    instruction.line.toList = joinWords instruction.leadToken instruction.argumentTokens := by
  cases instruction with
  | ordinary id operands => exact String.toList_append.trans (congrArg _ (toList_arguments operands))
  | special sub operands => exact toList_line_of_lead (by decide) (toList_arguments operands)
  | kawai sub operands => exact toList_line_of_lead (by decide) (toList_arguments operands)
  | label number =>
    have hline : ("LABEL " ++ decimal number ++ "").toList
        = joinWords "LABEL".toList [(decimal number).toList] :=
      toList_line_of_lead (by decide) String.toList_empty
    rwa [String.append_empty] at hline

end Instruction

theorem isWord_decimal (n : Nat) : IsWord (decimal n).toList :=
  ⟨(Listing.toList_decimal n).symm ▸ Nat.toDigits_ne_nil, Listing.isBlank_of_mem_decimal⟩

theorem isWord_hexId (width n : Nat) : IsWord (hexId width n).toList := by
  obtain ⟨count, htoken⟩ := Listing.toList_hexId width n
  exact ⟨htoken.symm ▸ List.cons_ne_nil _ _, Listing.isBlank_of_mem_hexId⟩

theorem isWord_signedDecimal (v : Int) : IsWord (signedDecimal v).toList := by
  refine ⟨?_, Listing.isBlank_of_mem_signedDecimal⟩
  rcases lt_or_ge v 0 with hneg | hpos
  · rw [Listing.toList_signedDecimal_of_neg hneg]
    exact List.cons_ne_nil _ _
  · rw [Listing.toList_signedDecimal_of_nonneg hpos]
    exact Nat.toDigits_ne_nil

theorem isWord_of_mem_tokens {operands : List Operand} :
    ∀ w ∈ Operand.tokens operands, IsWord w := fun w hw => by
  obtain ⟨operand, -, rfl⟩ := List.mem_map.mp hw
  exact isWord_signedDecimal operand.value

namespace Instruction

theorem isWord_leadToken (instruction : Instruction) : IsWord instruction.leadToken := by
  have hword : ∀ lead ∈ ["SPECIAL", "KAWAI", "LABEL"], IsWord lead.toList := by decide +kernel
  cases instruction with
  | ordinary id operands => exact isWord_mnemonic id
  | special sub operands => exact hword "SPECIAL" (by decide)
  | kawai sub operands => exact hword "KAWAI" (by decide)
  | label number => exact hword "LABEL" (by decide)

theorem isWord_of_mem_argumentTokens (instruction : Instruction) :
    ∀ w ∈ instruction.argumentTokens, IsWord w := by
  cases instruction with
  | ordinary id operands => exact isWord_of_mem_tokens
  | special sub operands =>
    exact List.forall_mem_cons.mpr ⟨isWord_hexId 2 sub.toNat, isWord_of_mem_tokens⟩
  | kawai sub operands =>
    exact List.forall_mem_cons.mpr ⟨isWord_hexId 2 sub.toNat, isWord_of_mem_tokens⟩
  | label number => exact List.forall_mem_singleton.mpr (isWord_decimal number)

theorem newline_not_mem_line (instruction : Instruction) : '\n' ∉ instruction.line.toList := by
  rw [toList_line]
  exact newline_not_mem_joinWords instruction.isWord_leadToken
    instruction.isWord_of_mem_argumentTokens

theorem isComment_line (instruction : Instruction) :
    Listing.isComment instruction.line.toList = false := by
  rw [toList_line]
  cases instruction with
  | ordinary id operands => exact isComment_mnemonic id _
  | _ => rfl

/-- **Reading the line of an instruction** is reading an instruction from its
words. -/
theorem readLine_line (instruction : Instruction) :
    Listing.readLine instruction.line.toList
      = (Listing.readInstruction instruction.leadToken instruction.argumentTokens).map some := by
  have hlead := instruction.isWord_leadToken
  have harguments := instruction.isWord_of_mem_argumentTokens
  have hcomment := instruction.isComment_line
  unfold Listing.readLine
  rw [toList_line] at hcomment ⊢
  dsimp only
  rw [trim_joinWords hlead harguments, hcomment, words_joinWords hlead harguments]
  rfl

end Instruction

end FieldMap
