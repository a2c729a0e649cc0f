import FieldMap.Script.Labels
import FieldMap.Proofs.Stream

/-!
# The distance of a jump and its target

A jump has one operand that says where it leads, and `setValue` changes the
value of that operand and nothing else: the formats stay, and with them the
length of the instruction, the operand that is the jump and the byte at
which it stands. Which value leads to which target is therefore a question
of arithmetic alone, and `target?` and `distanceTo` answer it in the two
directions (`target?_setValue_distanceTo`, `distanceTo_of_target?`).
-/

namespace FieldMap.Instruction

variable {instruction : Instruction} {index start : Nat} {number value : Int}

/-- Every instruction but a label takes up bytes. -/
theorem length_pos_of_isLabel (h : instruction.isLabel = false) : 1 ≤ instruction.length := by
  cases instruction with
  | ordinary id operands => exact Nat.le_add_right 1 _
  | special sub operands => exact Nat.le_add_right_of_le (by norm_num)
  | kawai sub operands => exact Nat.le_add_right_of_le (by decide)
  | label number => exact absurd h (by simp [isLabel])

/-! ## What depends on the formats only -/

@[simp] theorem isLabel_setValue (instruction : Instruction) (index : Nat) (value : Int) :
    (instruction.setValue index value).isLabel = instruction.isLabel :=
  isLabel_withOperands ..

@[simp] theorem isBackJump_setValue (instruction : Instruction) (index : Nat) (value : Int) :
    (instruction.setValue index value).isBackJump = instruction.isBackJump := by
  cases instruction <;> rfl

theorem map_format_modify (operands : List Operand) (index : Nat) (value : Int) :
    (operands.modify index fun operand => ⟨operand.format, value⟩).map Operand.format
      = operands.map Operand.format := by
  refine List.ext_getElem? (fun i => ?_)
  rw [List.getElem?_map, List.getElem?_map, List.getElem?_modify]
  cases operands[i]? with
  | none => rfl
  | some operand => by_cases h : index = i <;> simp [h]

theorem operands_setValue (instruction : Instruction) (index : Nat) (value : Int) :
    (instruction.setValue index value).operands
      = instruction.operands.modify index fun operand => ⟨operand.format, value⟩ := by
  cases instruction with
  | label number => exact (List.modify_nil ..).symm
  | _ => rfl

/-- Every operand stays as it was, but the one that is given the value. -/
theorem mem_operands_setValue {operand : Operand}
    (h : operand ∈ (instruction.setValue index value).operands) :
    operand ∈ instruction.operands
      ∨ ∃ old, instruction.operands[index]? = some old ∧ operand = ⟨old.format, value⟩ := by
  rw [operands_setValue] at h
  obtain ⟨i, hi⟩ := List.mem_iff_getElem?.mp h
  rw [List.getElem?_modify] at hi
  split_ifs at hi with hindex
  · obtain ⟨old, hold, heq⟩ := Option.map_eq_some_iff.mp hi
    exact .inr ⟨old, hindex ▸ hold, heq.symm⟩
  · rw [Option.map_eq_map, Option.map_id'] at hi
    exact .inl (List.mem_of_getElem? hi)

@[simp] theorem map_format_setValue (instruction : Instruction) (index : Nat) (value : Int) :
    (instruction.setValue index value).operands.map Operand.format
      = instruction.operands.map Operand.format := by
  rw [operands_setValue, map_format_modify]

@[simp] theorem length_setValue (instruction : Instruction) (index : Nat) (value : Int) :
    (instruction.setValue index value).length = instruction.length :=
  length_withOperands (map_format_modify instruction.operands index value)

theorem findIdx?_congr {a b : List Operand} (h : a.map Operand.format = b.map Operand.format) :
    a.findIdx? (fun operand => operand.format.kind.isJump)
      = b.findIdx? fun operand => operand.format.kind.isJump := by
  have hmap := congrArg (List.findIdx? fun format : OperandFormat => format.kind.isJump) h
  rw [List.findIdx?_map, List.findIdx?_map] at hmap
  exact hmap

@[simp] theorem jumpIndex?_setValue (instruction : Instruction) (index : Nat) (value : Int) :
    (instruction.setValue index value).jumpIndex? = instruction.jumpIndex? := by
  cases instruction with
  | ordinary id operands => exact findIdx?_congr (map_format_modify operands index value)
  | _ => rfl

@[simp] theorem jumpOffset?_setValue (instruction : Instruction) (index : Nat) (value : Int) :
    (instruction.setValue index value).jumpOffset? = instruction.jumpOffset? := by
  unfold jumpOffset?
  rw [jumpIndex?_setValue]
  refine congrArg (Option.map · _) (funext fun jump => ?_)
  have hformats := congrArg (List.take jump) (map_format_setValue instruction index value)
  rw [← List.map_take, ← List.map_take] at hformats
  rw [bitLength_congr hformats]

/-- The greatest value of an operand does not depend on its value. -/
@[simp] theorem map_max_setValue (instruction : Instruction) (index jump : Nat) (value : Int) :
    ((instruction.setValue index value).operands[jump]?.map fun operand => operand.format.max)
      = instruction.operands[jump]?.map fun operand => operand.format.max := by
  have hformats := congrArg (fun formats => (formats[jump]?).map OperandFormat.max)
    (map_format_setValue instruction index value)
  simp only [List.getElem?_map, Option.map_map] at hformats
  exact hformats

/-! ## The value of a jump -/

theorem jumpValue?_eq_some :
    instruction.jumpValue? = some (index, value)
      ↔ instruction.jumpIndex? = some index
        ∧ ∃ operand, instruction.operands[index]? = some operand ∧ operand.value = value := by
  unfold jumpValue?
  simp only [Option.bind_eq_some_iff, Option.map_eq_some_iff, Prod.mk.injEq]
  constructor
  · rintro ⟨i, hi, operand, hoperand, rfl, rfl⟩
    exact ⟨hi, operand, hoperand, rfl⟩
  · rintro ⟨hi, operand, hoperand, rfl⟩
    exact ⟨index, hi, operand, hoperand, rfl, rfl⟩

theorem jumpValue?_eq_none_of_isLabel (h : instruction.isLabel = true) :
    instruction.jumpValue? = none := by
  cases instruction with
  | label number => rfl
  | _ => exact absurd h (by simp [isLabel])

/-- A jump holds the value that it is given. -/
theorem jumpValue?_setValue (h : instruction.jumpValue? = some (index, number)) (value : Int) :
    (instruction.setValue index value).jumpValue? = some (index, value) := by
  obtain ⟨hindex, operand, hoperand, -⟩ := jumpValue?_eq_some.mp h
  refine jumpValue?_eq_some.mpr ⟨(jumpIndex?_setValue ..).trans hindex,
    ⟨operand.format, value⟩, ?_, rfl⟩
  rw [operands_setValue, List.getElem?_modify_eq, hoperand]
  rfl

@[simp] theorem setValue_setValue (instruction : Instruction) (index : Nat) (value number : Int) :
    (instruction.setValue index value).setValue index number = instruction.setValue index number := by
  have hmodify : ∀ operands : List Operand,
      (operands.modify index fun operand => ⟨operand.format, value⟩).modify index
          (fun operand => ⟨operand.format, number⟩)
        = operands.modify index fun operand => ⟨operand.format, number⟩ := fun operands =>
    List.modify_modify_eq ..
  cases instruction with
  | ordinary id operands => exact congrArg (ordinary id) (hmodify operands)
  | special sub operands => exact congrArg (special sub) (hmodify operands)
  | kawai sub operands => exact congrArg (kawai sub) (hmodify operands)
  | label number => rfl

/-- A jump that is given the value that it holds stays as it is. -/
theorem setValue_self (h : instruction.jumpValue? = some (index, value)) :
    instruction.setValue index value = instruction := by
  obtain ⟨-, operand, hoperand, rfl⟩ := jumpValue?_eq_some.mp h
  have hmodify : (instruction.operands.modify index fun o => ⟨o.format, operand.value⟩)
      = instruction.operands := by
    refine List.ext_getElem? (fun i => ?_)
    rw [List.getElem?_modify]
    split_ifs with hi
    · rw [← hi, hoperand]
      rfl
    · exact Option.map_id'
  unfold setValue
  rw [hmodify]
  cases instruction <;> rfl

/-! ## Distance and target -/

/-- A jump leads somewhere, and no other instruction does. -/
theorem target?_isSome (instruction : Instruction) (start : Nat) :
    (instruction.target? start).isSome = instruction.jumpValue?.isSome := Option.isSome_map

/-- **The distance to a target leads there.** -/
theorem target?_setValue_distanceTo (h : instruction.jumpValue? = some (index, number))
    (start target : Nat) :
    (instruction.setValue index (instruction.distanceTo start target)).target? start
      = some (target : Int) := by
  unfold target?
  rw [jumpValue?_setValue h, Option.map_some, isBackJump_setValue, jumpOffset?_setValue]
  unfold distanceTo
  dsimp only
  split_ifs
  · rw [sub_sub_cancel]
  · refine congrArg some ?_
    ring

/-- **The distance to the target of a jump is the one it holds.** -/
theorem distanceTo_of_target? {target : Nat}
    (h : instruction.jumpValue? = some (index, value))
    (htarget : instruction.target? start = some (target : Int)) :
    instruction.distanceTo start target = value := by
  unfold target? at htarget
  rw [h, Option.map_some, Option.some.injEq] at htarget
  unfold distanceTo
  rw [← htarget]
  dsimp only
  split_ifs
  · rw [sub_sub_cancel]
  · ring

@[simp] theorem distanceTo_setValue (instruction : Instruction) (index : Nat) (value : Int)
    (start target : Nat) :
    (instruction.setValue index value).distanceTo start target
      = instruction.distanceTo start target := by
  unfold distanceTo
  rw [isBackJump_setValue, jumpOffset?_setValue]

end FieldMap.Instruction
