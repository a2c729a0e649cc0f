import FieldMap.Proofs.OperandBits

/-!
# What is accepted is what survives

Packing takes any value and stores what its format can hold of it, so a value from outside has to
be checked first. The check knows nothing of bytes: it compares the value with the least and the
greatest one of the format. This module says that it draws the line in the right place. What is
accepted comes back from the bytes as it went in, and what is refused does not.

The argument is that of `OperandFormat.wrap`: of the values that are stored alike exactly one is in
range, and that is the one that is read. It fails for labels, whose check is narrower than their
thirty-two bits. Their check still accepts nothing that would be lost, but refuses half of what
would not.
-/

namespace FieldMap

/-- A value is stored as it is exactly if it is in range. -/
theorem OperandFormat.wrap_eq_self_iff {format : OperandFormat} (hkind : format.kind ≠ .label)
    (hwidth : 0 < format.width) {value : Int} :
    format.wrap value = value ↔ format.holds value = true :=
  (wrap_eq_iff hkind hwidth).trans (and_iff_left (Int.ModEq.refl value))

/-- **An empty buffer takes any value** at a place that it has, and holds its bits afterwards. -/
theorem exists_packBits_empty {size bitOffset width : Nat} (hfit : BitPlace.Fits bitOffset width)
    (hsize : bitOffset + width ≤ 8 * size) (value : Int) :
    ∃ packed, packBits (List.replicate size 0) bitOffset width value = .ok packed
      ∧ unpackBits packed bitOffset width = .ok (storedBits width value) := by
  have hlong : BitPlace.span (bitOffset + width) ≤ (List.replicate size (0 : UInt8)).length := by
    rwa [List.length_replicate, BitPlace.span_le_iff]
  obtain ⟨place, hplace⟩ := BitPlace.exists_locate_iff.mpr hfit
  obtain ⟨packed, hpacked, -⟩ := exists_packBits_eq_ok hplace hlong value
  have hempty := isEmptyFrom_replicate_zero bitOffset size
  exact ⟨packed, hpacked, unpackBits_of_packBits hempty hpacked⟩

/-- Out of it the value is read that is stored for the packed one. -/
theorem exists_readOperand_empty {format : OperandFormat} {size bitOffset : Nat}
    (hkind : format.kind ≠ .label) (hfit : BitPlace.Fits bitOffset format.width)
    (hsize : bitOffset + format.width ≤ 8 * size) (value : Int) :
    ∃ packed, packBits (List.replicate size 0) bitOffset format.width value = .ok packed
      ∧ readOperand packed bitOffset format.width format.signed = .ok (format.wrap value) := by
  obtain ⟨packed, hpacked, hbits⟩ := exists_packBits_empty hfit hsize value
  exact ⟨packed, hpacked, readOperand_of_unpackBits hkind hbits⟩

/-- **A value is accepted exactly if it survives.** Whatever its format, other than that of labels,
and wherever it is packed in an empty buffer, what is read back is in range and differs from the
value by a multiple of `2 ^ width`. It is the value itself exactly if the check accepts it. -/
theorem check_eq_ok_iff_lossless (operand : Operand) (size bitOffset : Nat)
    (hkind : operand.format.kind ≠ .label)
    (hfit : BitPlace.Fits bitOffset operand.format.width)
    (hsize : bitOffset + operand.format.width ≤ 8 * size) :
    ∃ packed value,
      packBits (List.replicate size 0) bitOffset operand.format.width operand.value = .ok packed
        ∧ readOperand packed bitOffset operand.format.width operand.format.signed = .ok value
        ∧ (value = operand.value ↔ operand.check = .ok ())
        ∧ operand.format.min ≤ value ∧ value ≤ operand.format.max
        ∧ value ≡ operand.value [ZMOD 2 ^ operand.format.width] := by
  obtain ⟨packed, hpacked, hread⟩ := exists_readOperand_empty hkind hfit hsize operand.value
  obtain ⟨hmin, hmax⟩ :=
    OperandFormat.holds_iff.mp (OperandFormat.holds_wrap hkind hfit.1 operand.value)
  refine ⟨packed, operand.format.wrap operand.value, hpacked, hread, ?_, hmin, hmax,
    operand.format.wrap_modEq operand.value⟩
  rw [Operand.check_eq_ok, OperandFormat.wrap_eq_self_iff hkind hfit.1]

/-- One below the least value of three bits with a sign: it comes back as the greatest one, and is
refused. -/
theorem check_eq_ok_iff_lossless_threeBits :
    packBits (List.replicate 2 0) 10 3 (-5) = .ok [0, 0x18]
      ∧ readOperand [0, 0x18] 10 3 true = .ok 3
      ∧ (Operand.mk ⟨.unknown, 3, true⟩ (-5)).check ≠ .ok ()
      ∧ (3 : Int) ≡ -5 [ZMOD 2 ^ 3] := by
  have hbytes : packBits (List.replicate 2 0) 10 3 (-5) = .ok [0, 0x18] := by decide
  have hthree : readOperand [0, 0x18] 10 3 true = .ok 3 := by decide
  obtain ⟨packed, value, hpacked, hread, hcheck, -, -, hcongr⟩ :=
    check_eq_ok_iff_lossless ⟨⟨.unknown, 3, true⟩, -5⟩ 2 10 (by decide) (by decide) (by decide)
  obtain rfl : [0, 0x18] = packed := Except.ok.inj (hbytes.symm.trans hpacked)
  obtain rfl : 3 = value := Except.ok.inj (hthree.symm.trans hread)
  exact ⟨hbytes, hthree, fun haccepted => absurd (hcheck.mpr haccepted) (by decide), hcongr⟩

/-! ## Every kind -/

/-- **Nothing is accepted that would be lost**, be it of any kind. -/
theorem readOperand_of_check {kind : OperandKind} {value : Int} {size bitOffset : Nat}
    (h : (Operand.ofKind kind value).check = .ok ()) (hfit : BitPlace.Fits bitOffset kind.width)
    (hsize : bitOffset + kind.width ≤ 8 * size) :
    ∃ packed, packBits (List.replicate size 0) bitOffset kind.width value = .ok packed
      ∧ readOperand packed bitOffset kind.width kind.signed = .ok value := by
  have hholds : kind.format.holds value = true := Operand.check_eq_ok.mp h
  by_cases hlabel : kind = .label
  · subst hlabel
    obtain ⟨packed, hpacked, hbits⟩ := exists_packBits_empty hfit hsize value
    -- labels are stored without a sign, in one bit more than they use
    obtain ⟨hmin, hmax⟩ : 0 ≤ value ∧ value ≤ 2 ^ 31 - 1 := OperandFormat.holds_iff.mp hholds
    have hbound : value < 2 ^ 32 := by omega
    have hstored : (storedBits 32 value : Int) = value := by
      unfold storedBits
      rw [Int.emod_eq_of_lt hmin hbound, Int.toNat_of_nonneg hmin]
    refine ⟨packed, hpacked, ?_⟩
    unfold readOperand
    rw [hbits]
    exact congrArg Except.ok hstored
  · have hkind : kind.format.kind ≠ .label := hlabel
    obtain ⟨packed, hpacked, hread⟩ := exists_readOperand_empty hkind hfit hsize value
    rw [OperandFormat.wrap_of_holds hkind hfit.1 hholds] at hread
    exact ⟨packed, hpacked, hread⟩

/-- A label above its range would survive, and is refused all the same. -/
example : packBits (List.replicate 4 0) 0 32 (2 ^ 31) = .ok [0, 0, 0, 0x80]
    ∧ readOperand [0, 0, 0, 0x80] 0 32 false = .ok (2 ^ 31)
    ∧ (Operand.ofKind .label (2 ^ 31)).check = .error (.valueOutOfRange (2 ^ 31) 0 (2 ^ 31 - 1)) := by
  decide

end FieldMap
