import FieldMap.Proofs.EncodedInstructions
import FieldMap.Proofs.Placement

/-!
# When instructions can be encoded

An instruction is encoded by packing its operands behind a header of one, two or three bytes, into
a buffer that is as long as the instruction (`encode_eq_packOperands`). So it is the layout of
the operands that decides, not their values: the instruction can be encoded if every operand fits
its offset, and otherwise the first one that does not is named by the error. The buffer is never
too short.

Only a self-sized instruction can be refused before that. Its header states its length in one
byte, which leaves `kawaiMaxPayload` bytes for the operands.
-/

namespace FieldMap

open InstructionSet

namespace Instruction

variable {instruction : Instruction}

/-! ## Headers -/

/-- The bytes in front of the operands. -/
def header : Instruction → List UInt8
  | ordinary id _ => [id]
  | special sub _ => [specialId, sub]
  | kawai sub operands =>
    [kawaiId, UInt8.ofNat (kawaiHeaderLength + payloadLength operands), sub]
  | label _ => []

/-- **Where the operands start**, in bits. -/
def firstBit : Instruction → Nat
  | ordinary _ _ => 8
  | special _ _ => 16
  | kawai _ _ => 24
  | label _ => 0

/-- **Whether an instruction is too long to state its length.** -/
def IsOversized : Instruction → Prop
  | kawai _ operands => kawaiMaxPayload < payloadLength operands
  | _ => False

theorem firstBit_eq (instruction : Instruction) :
    instruction.firstBit = 8 * instruction.header.length := by
  cases instruction <;> rfl

theorem length_eq_header (hlabel : instruction.isLabel = false) :
    instruction.length = instruction.header.length + payloadLength instruction.operands := by
  cases instruction with
  | label number => exact nomatch hlabel
  | _ => rfl

/-- The buffer is as long as the header and all operands together. -/
theorem span_le_length_buffer (instruction : Instruction) :
    BitPlace.span (instruction.firstBit + bitLength instruction.operands)
      ≤ (instruction.header
          ++ List.replicate (payloadLength instruction.operands) (0 : UInt8)).length := by
  rw [firstBit_eq, List.length_append, List.length_replicate]
  unfold payloadLength BitPlace.span
  omega

/-! ## Errors -/

theorem encode_eq_packOperands (hlabel : instruction.isLabel = false)
    (hsize : ¬instruction.IsOversized) :
    instruction.encode
      = packOperands
          (instruction.header ++ List.replicate (payloadLength instruction.operands) 0)
          instruction.firstBit instruction.operands := by
  cases instruction with
  | ordinary id operands => rfl
  | special sub operands => rfl
  | kawai sub operands =>
    have hlength : kawaiHeaderLength + payloadLength operands ≤ 255 := by
      unfold IsOversized kawaiMaxPayload kawaiHeaderLength at hsize
      unfold kawaiHeaderLength
      omega
    exact if_pos hlength
  | label number => exact nomatch hlabel

/-- An instruction that cannot state its length is refused, whatever its operands are. -/
theorem encode_of_isOversized (h : instruction.IsOversized) :
    instruction.encode = .error (.wrongSize .kawaiInstruction 255 instruction.length) := by
  cases instruction with
  | kawai sub operands =>
    have hlength : ¬kawaiHeaderLength + payloadLength operands ≤ 255 := by
      unfold IsOversized kawaiMaxPayload kawaiHeaderLength at h
      unfold kawaiHeaderLength
      omega
    exact if_neg hlength
  | _ => exact h.elim

theorem encode_of_isFirstMisfit {index : Nat} {format : OperandFormat}
    (hlabel : instruction.isLabel = false) (hsize : ¬instruction.IsOversized)
    (h : IsFirstMisfit instruction.firstBit (instruction.operands.map Operand.format) index format) :
    instruction.encode
      = .error (.misaligned (operandOffset instruction.firstBit
          (instruction.operands.map Operand.format) index) format.width) := by
  rw [encode_eq_packOperands hlabel hsize]
  exact packOperands_eq_error instruction.span_le_length_buffer h

/-- **An instruction that can be encoded**: its length can be stated and its operands fit. The
bytes are as many as its length says. -/
theorem exists_encode_eq_ok_iff (hlabel : instruction.isLabel = false) :
    (∃ bytes, instruction.encode = .ok bytes)
      ↔ ¬instruction.IsOversized
        ∧ ∀ index, FitsAt instruction.firstBit (instruction.operands.map Operand.format) index := by
  by_cases hsize : instruction.IsOversized
  · refine iff_of_false (fun ⟨bytes, hbytes⟩ => ?_) (fun h => h.1 hsize)
    exact nomatch (encode_of_isOversized hsize).symm.trans hbytes
  · rw [encode_eq_packOperands hlabel hsize,
      exists_packOperands_eq_ok_iff instruction.span_le_length_buffer]
    exact (and_iff_right hsize).symm

theorem length_of_encode {bytes : List UInt8} (hlabel : instruction.isLabel = false)
    (h : instruction.encode = .ok bytes) : bytes.length = instruction.length := by
  obtain ⟨hsize, hfits⟩ := (exists_encode_eq_ok_iff hlabel).mp ⟨bytes, h⟩
  obtain ⟨packed, hpacked, hlen⟩ :=
    exists_packOperands_eq_ok (havePlaces_iff.mpr hfits) instruction.span_le_length_buffer
  rw [encode_eq_packOperands hlabel hsize, hpacked, Except.ok.injEq] at h
  rw [← h, hlen, length_eq_header hlabel, List.length_append, List.length_replicate]

/-- **Why an instruction cannot be encoded**: it is too long to state its length, or there is a
first operand that does not fit. -/
theorem encode_eq_error {e : CodecError} (hlabel : instruction.isLabel = false) :
    instruction.encode = .error e
      ↔ instruction.IsOversized ∧ e = .wrongSize .kawaiInstruction 255 instruction.length
        ∨ ¬instruction.IsOversized
          ∧ ∃ index format,
            IsFirstMisfit instruction.firstBit (instruction.operands.map Operand.format) index format
            ∧ e = .misaligned (operandOffset instruction.firstBit
                (instruction.operands.map Operand.format) index) format.width := by
  constructor
  · intro h
    by_cases hsize : instruction.IsOversized
    · rw [encode_of_isOversized hsize, Except.error.injEq] at h
      exact .inl ⟨hsize, h.symm⟩
    · have hmisfit : ¬∀ index,
          FitsAt instruction.firstBit (instruction.operands.map Operand.format) index := by
        intro hfits
        obtain ⟨bytes, hbytes⟩ := (exists_encode_eq_ok_iff hlabel).mpr ⟨hsize, hfits⟩
        exact nomatch hbytes.symm.trans h
      obtain ⟨index, format, hfirst⟩ := exists_isFirstMisfit hmisfit
      rw [encode_of_isFirstMisfit hlabel hsize hfirst, Except.error.injEq] at h
      exact .inr ⟨hsize, index, format, hfirst, h.symm⟩
  · rintro (⟨hsize, rfl⟩ | ⟨hsize, index, format, hfirst, rfl⟩)
    · exact encode_of_isOversized hsize
    · exact encode_of_isFirstMisfit hlabel hsize hfirst

theorem not_isTruncated_of_encode {e : CodecError} (h : instruction.encode = .error e) :
    ¬e.IsTruncated := by
  rintro ⟨item, offset, needed, available, rfl⟩
  cases hlabel : instruction.isLabel with
  | false =>
    obtain ⟨-, he⟩ | ⟨-, index, format, -, he⟩ := (encode_eq_error hlabel).mp h
    · exact nomatch he
    · exact nomatch he
  | true =>
    cases instruction with
    | label number =>
      have hcheck := Except.bind_pure_eq_error.mp h
      unfold checkLabel Operand.check at hcheck
      split_ifs at hcheck
      exact nomatch hcheck
    | _ => exact nomatch hlabel

/-! ## Other values -/

section Values

variable {operands : List Operand}

theorem firstBit_withOperands (instruction : Instruction) (operands : List Operand) :
    (instruction.withOperands operands).firstBit = instruction.firstBit := by
  cases instruction <;> rfl

theorem isOversized_withOperands
    (hformats : operands.map Operand.format = instruction.operands.map Operand.format) :
    (instruction.withOperands operands).IsOversized ↔ instruction.IsOversized := by
  have hpayload := payloadLength_congr hformats
  cases instruction with
  | kawai sub old => exact iff_of_eq (congrArg (kawaiMaxPayload < ·) hpayload)
  | _ => exact Iff.rfl

/-- **Whether and how encoding fails** does not depend on the values. -/
theorem encode_withOperands_eq_error {e : CodecError}
    (hformats : operands.map Operand.format = instruction.operands.map Operand.format) :
    (instruction.withOperands operands).encode = .error e ↔ instruction.encode = .error e := by
  cases hlabel : instruction.isLabel with
  | false =>
    rw [encode_eq_error ((isLabel_withOperands ..).trans hlabel), encode_eq_error hlabel,
      operands_withOperands hlabel, hformats, firstBit_withOperands, length_withOperands hformats,
      isOversized_withOperands hformats]
  | true =>
    cases instruction with
    | label number => exact Iff.rfl
    | _ => exact nomatch hlabel

end Values

/-- **The layout decides whether an instruction can be encoded.** The buffer is never too short. An
instruction other than a label is encoded if its length can be stated and every operand fits its
offset, and then the bytes are as many as its length says. It is refused because of its length
before its operands are looked at, and otherwise because of the first operand that does not fit.
Other values in operands of the same formats give the same error or none either. -/
theorem encode_outcome (instruction : Instruction) :
    (∀ e, instruction.encode = .error e → ¬e.IsTruncated)
      ∧ (instruction.isLabel = false →
        ((∃ bytes, instruction.encode = .ok bytes)
            ↔ ¬instruction.IsOversized ∧ ∀ index,
              FitsAt instruction.firstBit (instruction.operands.map Operand.format) index)
          ∧ (∀ bytes, instruction.encode = .ok bytes → bytes.length = instruction.length)
          ∧ ∀ e, instruction.encode = .error e
            ↔ instruction.IsOversized ∧ e = .wrongSize .kawaiInstruction 255 instruction.length
              ∨ ¬instruction.IsOversized
                ∧ ∃ index format,
                  IsFirstMisfit instruction.firstBit (instruction.operands.map Operand.format)
                    index format
                  ∧ e = .misaligned (operandOffset instruction.firstBit
                      (instruction.operands.map Operand.format) index) format.width)
      ∧ ∀ operands, operands.map Operand.format = instruction.operands.map Operand.format →
        ∀ e, (instruction.withOperands operands).encode = .error e
          ↔ instruction.encode = .error e := by
  refine ⟨fun e => not_isTruncated_of_encode, fun hlabel => ⟨?_, fun bytes => ?_, fun e => ?_⟩,
    fun operands hformats e => ?_⟩
  · exact exists_encode_eq_ok_iff hlabel
  · exact length_of_encode hlabel
  · exact encode_eq_error hlabel
  · exact encode_withOperands_eq_error hformats

/-- Twelve bits in two bytes with a narrow operand in the bits that are left, both out of range;
twelve bits that do not start a byte; and a self-sized instruction with one byte too many. -/
theorem encode_outcome_handMade :
    (∃ bytes, encode (.ordinary 0x10 [⟨⟨.unknown, 12, false⟩, 0x1234⟩, ⟨⟨.unknown, 3, true⟩, -9⟩])
        = .ok bytes ∧ bytes.length = 3)
      ∧ encode (.special 0xF8 [⟨⟨.unknown, 3, false⟩, 1⟩, ⟨⟨.unknown, 12, false⟩, 1⟩,
          ⟨⟨.unknown, 0, false⟩, 1⟩]) = .error (.misaligned 19 12)
      ∧ encode (.kawai 0 ((List.replicate 253 1).map .raw))
        = .error (.wrongSize .kawaiInstruction 255 256) := by
  refine ⟨?_, ?_, ?_⟩
  · obtain ⟨hok, hlength, -⟩ := (encode_outcome
      (.ordinary 0x10 [⟨⟨.unknown, 12, false⟩, 0x1234⟩, ⟨⟨.unknown, 3, true⟩, -9⟩])).2.1 rfl
    obtain ⟨bytes, hbytes⟩ := hok.mpr ⟨fun h => h, havePlaces_iff.mp (by decide)⟩
    exact ⟨bytes, hbytes, (hlength bytes hbytes).trans (by decide)⟩
  · refine (((encode_outcome _).2.1 rfl).2.2 _).mpr
      (.inr ⟨fun h => h, 1, _, ⟨rfl, by decide, fun earlier hlt format hget => ?_⟩, rfl⟩)
    -- the operand in front of it lies inside of one byte
    obtain rfl : earlier = 0 := by omega
    rw [← Option.some.inj hget]
    decide
  · have hpayload : payloadLength ((List.replicate 253 1).map .raw) = 253 := by
      rw [payloadLength_raw, List.length_replicate]
    refine (((encode_outcome _).2.1 rfl).2.2 _).mpr (.inl ⟨?_, ?_⟩)
    · show kawaiMaxPayload < payloadLength _
      rw [hpayload]
      decide
    · show _ = CodecError.wrongSize .kawaiInstruction 255 (kawaiHeaderLength + payloadLength _)
      rw [hpayload]
      rfl

end Instruction

end FieldMap
