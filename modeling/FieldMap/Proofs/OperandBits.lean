import FieldMap.Proofs.PackedOperands

/-!
# The bits of packed operands

Bits are counted from the highest one of the first byte, as operands narrower than a byte are laid
out. Keeping the first bits of a buffer clears the others and no more (`bitAt_keepBits`), so that
what is known of a buffer half filled can be said bit by bit: operands leave no gap between them
(`isOperandBit_iff`), the bits in front of them are those of the buffer they were packed into, and
those behind them are empty.

With what is read back from each place this is all there is to know of packed operands
(`packOperands_lossless`). Operands narrower than a byte are added to bytes that they share, and
wider ones replace theirs, but none of them disturbs another.
-/

namespace FieldMap

/-! ## Single bits -/

/-- **A bit of a buffer**, counted from the highest one of the first byte. -/
def bitAt (buffer : List UInt8) (bit : Nat) : Bool :=
  (buffer.getD (bit / 8) 0).toNat.testBit (7 - bit % 8)

theorem bitAt_cons_of_lt {bit : Nat} (h : bit < 8) (b : UInt8) (bs : List UInt8) :
    bitAt (b :: bs) bit = b.toNat.testBit (7 - bit) := by
  unfold bitAt
  rw [Nat.div_eq_of_lt h, Nat.mod_eq_of_lt h, List.getD_cons_zero]

theorem bitAt_cons_add (b : UInt8) (bs : List UInt8) (bit : Nat) :
    bitAt (b :: bs) (bit + 8) = bitAt bs bit := by
  unfold bitAt
  rw [Nat.add_div_right bit (by decide), Nat.add_mod_right, List.getD_cons_succ]

theorem testBit_highBits {bit : Nat} (h : bit < 8) (count : Nat) (b : UInt8) :
    (highBits count b).toNat.testBit (7 - bit)
      = (decide (bit < count) && b.toNat.testBit (7 - bit)) := by
  rw [toNat_highBits, Nat.testBit_mul_two_pow, Nat.testBit_div_two_pow]
  by_cases hcount : bit < count
  · have hshift : 7 - bit - (8 - count) + (8 - count) = 7 - bit := by omega
    rw [decide_eq_true hcount, decide_eq_true (by omega : 8 - count ≤ 7 - bit), hshift]
  · rw [decide_eq_false hcount, decide_eq_false (by omega : ¬8 - count ≤ 7 - bit), Bool.false_and,
      Bool.false_and]

/-- **Bits that are kept** are those of the buffer, and the others are zero. -/
theorem bitAt_keepBits (count : Nat) (bs : List UInt8) (bit : Nat) :
    bitAt (keepBits count bs) bit = (decide (bit < count) && bitAt bs bit) := by
  induction bs generalizing count bit with
  | nil =>
    have hzero : bitAt [] bit = false := Nat.zero_testBit _
    rw [keepBits, hzero, Bool.and_false]
  | cons b bs ih =>
    rw [keepBits]
    obtain hbit | ⟨bit, rfl⟩ : bit < 8 ∨ ∃ behind, bit = behind + 8 :=
      (Nat.lt_or_ge bit 8).imp_right fun h => ⟨bit - 8, by omega⟩
    · rw [bitAt_cons_of_lt hbit, bitAt_cons_of_lt hbit, testBit_highBits hbit]
    · rw [bitAt_cons_add, bitAt_cons_add, ih, decide_eq_decide.mpr (Nat.lt_sub_iff_add_lt)]

/-- A buffer of zeros has no other bits. -/
theorem bitAt_replicate_zero (size bit : Nat) : bitAt (List.replicate size 0) bit = false := by
  have h := bitAt_keepBits 0 (List.replicate size 0) bit
  rwa [keepBits_zero, List.length_replicate] at h

/-! ## Bits of operands -/

section Bits

variable {bitOffset bit : Nat} {format : OperandFormat} {formats rest : List OperandFormat}

/-- **Whether a bit belongs to an operand**, if operands of these formats stand one behind the
other from a bit on. -/
def IsOperandBit (bitOffset : Nat) (formats : List OperandFormat) (bit : Nat) : Prop :=
  ∃ index format, formats[index]? = some format
    ∧ operandOffset bitOffset formats index ≤ bit
    ∧ bit < operandOffset bitOffset formats index + format.width

theorem isOperandBit_cons :
    IsOperandBit bitOffset (format :: rest) bit
      ↔ bitOffset ≤ bit ∧ bit < bitOffset + format.width
        ∨ IsOperandBit (bitOffset + format.width) rest bit := by
  constructor
  · rintro ⟨_ | index, other, hget, hbit⟩
    · obtain rfl := Option.some.inj hget
      exact .inl hbit
    · rw [operandOffset_cons_succ] at hbit
      exact .inr ⟨index, other, hget, hbit⟩
  · rintro (hbit | ⟨index, other, hget, hbit⟩)
    · exact ⟨0, format, rfl, hbit⟩
    · refine ⟨index + 1, other, hget, ?_⟩
      rwa [operandOffset_cons_succ]

/-- **Operands leave no gap between them.** -/
theorem isOperandBit_iff :
    IsOperandBit bitOffset formats bit
      ↔ bitOffset ≤ bit ∧ bit < bitOffset + (formats.map OperandFormat.width).sum := by
  induction formats generalizing bitOffset with
  | nil =>
    refine iff_of_false (fun ⟨index, format, hget, _⟩ => nomatch hget) ?_
    rw [List.map_nil, List.sum_nil]
    omega
  | cons format rest ih =>
    rw [isOperandBit_cons, ih, List.map_cons, List.sum_cons]
    omega

end Bits

/-! ## Packed operands -/

section Packed

variable {buffer packed : List UInt8} {bitOffset : Nat} {operands : List Operand}

/-- **An operand is read back** as the value of its width that is stored like the one that was
packed. -/
theorem exists_readOperand_of_packOperands
    (htiles : ∀ operand ∈ operands, IsTile operand.format.width)
    (hempty : IsEmptyFrom bitOffset buffer)
    (h : packOperands buffer bitOffset operands = .ok packed) {index : Nat} {operand : Operand}
    (hget : operands[index]? = some operand) :
    ∃ value,
      readOperand packed (operandOffset bitOffset (operands.map Operand.format) index)
          operand.format.width operand.format.signed = .ok value
        ∧ value ≡ operand.value [ZMOD 2 ^ operand.format.width]
        ∧ IsValueOf operand.format.width operand.format.signed value := by
  have hbits := unpackBits_of_packOperands htiles hempty h index operand hget
  obtain ⟨value, hvalue, hcongr⟩ := exists_readOperand_of_unpackBits hbits operand.format.signed
  exact ⟨value, hvalue, hcongr, isValueOf_of_readOperand hvalue⟩

/-- **A bit of no operand** stays as it is. -/
theorem bitAt_of_packOperands {bit : Nat}
    (htiles : ∀ operand ∈ operands, IsTile operand.format.width)
    (hempty : IsEmptyFrom bitOffset buffer)
    (h : packOperands buffer bitOffset operands = .ok packed)
    (hbit : ¬IsOperandBit bitOffset (operands.map Operand.format) bit) :
    bitAt packed bit = bitAt buffer bit := by
  obtain ⟨hfront, hback⟩ := keepBits_of_packOperands htiles hempty h
  rw [isOperandBit_iff, List.map_map] at hbit
  obtain hlt | hle : bit < bitOffset ∨ bitOffset + bitLength operands ≤ bit := by
    unfold bitLength
    simp only [Function.comp_def] at hbit
    omega
  · rw [← hfront, bitAt_keepBits, decide_eq_true hlt, Bool.true_and]
  · have hpacked := bitAt_keepBits (bitOffset + bitLength operands) packed bit
    have hbuffer := bitAt_keepBits bitOffset buffer bit
    rw [hback, decide_eq_false (by omega), Bool.false_and] at hpacked
    rw [hempty, decide_eq_false (by omega), Bool.false_and] at hbuffer
    rw [hpacked, hbuffer]

/-- Zeros are empty from any bit on. -/
theorem isEmptyFrom_replicate_zero (bitOffset size : Nat) :
    IsEmptyFrom bitOffset (List.replicate size 0) := by
  induction size generalizing bitOffset with
  | zero => rfl
  | succ size ih =>
    have hzero : highBits bitOffset 0 = 0 := by
      apply UInt8.toNat_inj.mp
      rw [toNat_highBits, UInt8.toNat_zero, Nat.zero_div, Nat.zero_mul]
    unfold IsEmptyFrom
    rw [List.replicate_succ, keepBits, hzero, ih]

end Packed

/-- **Packing loses nothing but what is out of range**, whatever the layout. Operands narrower
than a byte or of whole bytes that can be packed into zeros, from some byte on, are each read back
from their own bits, as the value of their width that differs from theirs by a multiple of
`2 ^ width`. Every bit that belongs to none of them is still zero. -/
theorem packOperands_lossless (size startByte : Nat) {operands : List Operand} {packed : List UInt8}
    (htiles : ∀ operand ∈ operands, IsTile operand.format.width)
    (h : packOperands (List.replicate size 0) (8 * startByte) operands = .ok packed) :
    packed.length = size
      ∧ (∀ index operand, operands[index]? = some operand →
        ∃ value,
          readOperand packed (operandOffset (8 * startByte) (operands.map Operand.format) index)
              operand.format.width operand.format.signed = .ok value
            ∧ value ≡ operand.value [ZMOD 2 ^ operand.format.width]
            ∧ IsValueOf operand.format.width operand.format.signed value)
      ∧ ∀ bit, ¬IsOperandBit (8 * startByte) (operands.map Operand.format) bit →
        bitAt packed bit = false := by
  have hempty := isEmptyFrom_replicate_zero (8 * startByte) size
  refine ⟨?_, fun index operand hget => ?_, fun bit hbit => ?_⟩
  · have hfront := congrArg List.length (keepBits_of_packOperands htiles hempty h).1
    rwa [length_keepBits, List.length_replicate] at hfront
  · exact exists_readOperand_of_packOperands htiles hempty h hget
  · rw [bitAt_of_packOperands htiles hempty h hbit, bitAt_replicate_zero]

/-- Two operands that share a byte, three bytes of a negative number, and a single bit. The second
operand is out of range. -/
theorem packOperands_lossless_mixed :
    packOperands (List.replicate 7 0) 8 [⟨⟨.unknown, 3, true⟩, -3⟩, ⟨⟨.unknown, 5, false⟩, 100⟩,
        ⟨⟨.unknown, 24, true⟩, -70000⟩, ⟨⟨.unknown, 1, true⟩, -1⟩]
        = .ok [0, 0xA4, 0x90, 0xEE, 0xFE, 0x80, 0]
      ∧ (∃ value, readOperand [0, 0xA4, 0x90, 0xEE, 0xFE, 0x80, 0] 11 5 false = .ok value
        ∧ value ≡ 100 [ZMOD 2 ^ 5] ∧ IsValueOf 5 false value)
      ∧ bitAt [0, 0xA4, 0x90, 0xEE, 0xFE, 0x80, 0] 41 = false := by
  have hpacked : packOperands (List.replicate 7 0) 8 [⟨⟨.unknown, 3, true⟩, -3⟩,
      ⟨⟨.unknown, 5, false⟩, 100⟩, ⟨⟨.unknown, 24, true⟩, -70000⟩, ⟨⟨.unknown, 1, true⟩, -1⟩]
      = .ok [0, 0xA4, 0x90, 0xEE, 0xFE, 0x80, 0] := by decide
  obtain ⟨-, hread, hbits⟩ := packOperands_lossless 7 1 (by decide) hpacked
  refine ⟨hpacked, hread 1 _ rfl, hbits 41 ?_⟩
  rw [isOperandBit_iff]
  decide

end FieldMap
