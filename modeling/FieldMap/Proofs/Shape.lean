import FieldMap.Script.Instruction
import FieldMap.Proofs.OperandPlaces

/-!
# The shape of an instruction

An instruction of the machine has the operands that its id calls for, in
the formats of its row, or as many raw bytes as it is long. That is its
*shape*, and it says nothing about the values (`Instruction.WellShaped`).
Values are a second matter: those that can be stored without loss are *in
range* (`Instruction.InRange`). Whatever is decoded has both, and both are
what printing and encoding need.

The facts about the instruction set that this takes are facts about the
rows of its table, decided row by row.
-/

namespace FieldMap

open InstructionSet

/-! ## Values that fit -/

theorem le_signExtend {width : Nat} (hwidth : 0 < width) (bits : Nat) :
    -2 ^ (width - 1) ≤ signExtend width bits := by
  have hpow : (2 : Int) ^ width = 2 * 2 ^ (width - 1) := by
    rw [← pow_succ', Nat.sub_add_cancel hwidth]
  have hpos : (0 : Int) < 2 ^ (width - 1) := by positivity
  unfold signExtend
  rw [if_neg hwidth.ne']
  dsimp only
  split_ifs with h
  · omega
  · have h' : (2 : Int) ^ (width - 1) ≤ (bits % 2 ^ width : Nat) := by exact_mod_cast not_lt.mp h
    omega

theorem signExtend_lt {width : Nat} (hwidth : 0 < width) (bits : Nat) :
    signExtend width bits < 2 ^ (width - 1) := by
  have hpos : (0 : Int) < 2 ^ (width - 1) := by positivity
  unfold signExtend
  rw [if_neg hwidth.ne']
  dsimp only
  split_ifs with h
  · exact_mod_cast h
  · have hlow : ((bits % 2 ^ width : Nat) : Int) < 2 ^ width := by
      exact_mod_cast Nat.mod_lt bits (by positivity : 0 < 2 ^ width)
    omega

/-- **The values of an operand** of some width: in two's complement if it has a sign, and from
zero on if it has none. -/
def IsValueOf (width : Nat) (signed : Bool) (value : Int) : Prop :=
  if signed then -2 ^ (width - 1) ≤ value ∧ value < 2 ^ (width - 1)
  else 0 ≤ value ∧ value < 2 ^ width

theorem isValueOf_of_readOperand {buffer : List UInt8} {bitOffset width : Nat} {signed : Bool}
    {value : Int} (h : readOperand buffer bitOffset width signed = .ok value) :
    IsValueOf width signed value := by
  unfold readOperand at h
  simp only [Except.bind_eq_ok, Except.pure_eq_ok, Except.ok.injEq] at h
  obtain ⟨bits, hbits, rfl⟩ := h
  obtain ⟨hwidth, hlt⟩ := lt_of_unpackBits hbits
  cases signed with
  | true => exact ⟨le_signExtend hwidth bits, signExtend_lt hwidth bits⟩
  | false =>
    show 0 ≤ (bits : Int) ∧ (bits : Int) < 2 ^ width
    exact ⟨Int.natCast_nonneg bits, by exact_mod_cast hlt⟩

namespace OperandFormat

theorem holds_iff {format : OperandFormat} {value : Int} :
    format.holds value = true ↔ format.min ≤ value ∧ value ≤ format.max := by
  unfold holds
  rw [Bool.and_eq_true, decide_eq_true_iff, decide_eq_true_iff]

/-- **A value that was read lies in the range of its format.** -/
theorem holds_of_readOperand {format : OperandFormat} {buffer : List UInt8} {bitOffset : Nat}
    {value : Int} (hkind : format.kind ≠ .label)
    (h : readOperand buffer bitOffset format.width format.signed = .ok value) :
    format.holds value = true := by
  have hvalue := isValueOf_of_readOperand h
  unfold IsValueOf at hvalue
  rw [holds_iff, OperandFormat.min, OperandFormat.max]
  cases hsigned : format.signed with
  | true =>
    simp only [hsigned, hkind, if_true, if_false, false_or, Bool.true_eq_false] at hvalue ⊢
    exact ⟨hvalue.1, Int.le_sub_one_of_lt hvalue.2⟩
  | false =>
    simp only [hsigned, hkind, if_true, if_false, or_true, Bool.false_eq_true] at hvalue ⊢
    exact ⟨hvalue.1, Int.le_sub_one_of_lt hvalue.2⟩

end OperandFormat

theorem Operand.check_eq_ok {operand : Operand} :
    operand.check = .ok () ↔ operand.format.holds operand.value = true := by
  unfold Operand.check
  split_ifs with h
  · exact iff_of_true rfl h
  · exact iff_of_false (fun hcheck => nomatch hcheck) h

/-- Reading operands gives values in range. -/
theorem holds_of_readOperands {body : List UInt8} {bitOffset : Nat}
    {formats : List OperandFormat} {operands : List Operand}
    (hkinds : ∀ format ∈ formats, format.kind ≠ .label)
    (h : readOperands body bitOffset formats = .ok operands) :
    ∀ operand ∈ operands, operand.format.holds operand.value = true := by
  intro operand hmem
  obtain ⟨hformats, hvalues⟩ := readOperands_eq_ok.mp h
  obtain ⟨index, hget⟩ := List.mem_iff_getElem?.mp hmem
  exact OperandFormat.holds_of_readOperand (hkinds _ (hformats ▸ List.mem_map_of_mem hmem))
    (hvalues index operand hget)

/-! ## Raw bytes -/

/-- The format of a byte whose meaning is not known. -/
def rawFormat : OperandFormat := OperandKind.unknown.format

theorem holds_raw (b : UInt8) : (Operand.raw b).format.holds (Operand.raw b).value = true := by
  have hb := b.toNat_lt
  rw [OperandFormat.holds_iff]
  show (0 : Int) ≤ b.toNat ∧ (b.toNat : Int) ≤ 2 ^ 8 - 1
  omega

/-- **An operand in the raw format whose value is in range is a raw
byte.** -/
theorem eq_raw_of_holds {operand : Operand} (hformat : operand.format = rawFormat)
    (h : operand.format.holds operand.value = true) :
    operand = Operand.raw (UInt8.ofNat operand.value.toNat) := by
  obtain ⟨format, value⟩ := operand
  dsimp only at hformat h ⊢
  subst hformat
  obtain ⟨hmin, hmax⟩ := OperandFormat.holds_iff.mp h
  have hmin' : 0 ≤ value := hmin
  have hmax' : value ≤ 2 ^ 8 - 1 := hmax
  have hbyte : (UInt8.ofNat value.toNat).toNat = value.toNat := by
    rw [UInt8.toNat_ofNat']
    omega
  unfold Operand.raw Operand.ofKind
  rw [hbyte, Int.toNat_of_nonneg hmin']
  rfl

@[simp] theorem map_format_raw (bytes : List UInt8) :
    (bytes.map Operand.raw).map Operand.format = List.replicate bytes.length rawFormat := by
  rw [List.map_map]
  exact List.map_const' (l := bytes)

@[simp] theorem bitLength_raw (bytes : List UInt8) :
    bitLength (bytes.map Operand.raw) = 8 * bytes.length := by
  induction bytes with
  | nil => rfl
  | cons b bytes ih =>
    rw [List.map_cons, bitLength_cons, ih, List.length_cons]
    show 8 + 8 * bytes.length = 8 * (bytes.length + 1)
    omega

@[simp] theorem payloadLength_raw (bytes : List UInt8) :
    payloadLength (bytes.map Operand.raw) = bytes.length := by
  rw [payloadLength, bitLength_raw]
  unfold BitPlace.span
  omega

theorem readOperand_byte (front back : List UInt8) (b : UInt8) :
    readOperand (front ++ ([b] ++ back)) (8 * front.length) 8 false = .ok b.toNat := by
  have hplace : BitPlace.locate (8 * front.length) 8 = .ok ⟨front.length, 0⟩ := by
    rw [BitPlace.locate_eq_ok]
    dsimp only
    omega
  have hwindow : window .operand front.length (BitPlace.span 8) (front ++ ([b] ++ back))
      = .ok [b] := window_append front back rfl rfl
  have hb := b.toNat_lt
  unfold readOperand unpackBits
  rw [hplace, Except.ok_bind]
  dsimp only
  rw [hwindow]
  simp [ofLittleEndian]

/-- **Raw bytes are read as they are.** -/
theorem readOperands_raw (front bytes : List UInt8) :
    readOperands (front ++ bytes) (8 * front.length) (List.replicate bytes.length rawFormat)
      = .ok (bytes.map Operand.raw) := by
  induction bytes generalizing front with
  | nil => rfl
  | cons b bytes ih =>
    have hrest := ih (front ++ [b])
    have hnext : 8 * (front ++ [b]).length = 8 * front.length + 8 := by
      rw [List.length_append, List.length_singleton]
      omega
    rw [List.append_assoc, hnext] at hrest
    rw [List.length_cons, List.replicate_succ, readOperands]
    show (do let value ← readOperand (front ++ ([b] ++ bytes)) (8 * front.length) 8 false; _) = _
    rw [readOperand_byte, Except.ok_bind]
    show (do let operands ← readOperands (front ++ ([b] ++ bytes)) (8 * front.length + 8) _; _) = _
    rw [hrest]
    rfl

/-- **Raw bytes are packed as they are.** -/
theorem packOperands_raw (front bytes : List UInt8) :
    packOperands (front ++ List.replicate bytes.length 0) (8 * front.length)
      (bytes.map Operand.raw) = .ok (front ++ bytes) := by
  have htile : ∀ format ∈ List.replicate bytes.length rawFormat, IsTile format.width := by
    intro format hmem
    rw [List.eq_of_mem_replicate hmem]
    decide
  have hpack := packOperands_keepBits htile (readOperands_raw front bytes)
  have hempty := keepBits_append front bytes 0
  rw [Nat.add_zero, keepBits_zero] at hempty
  have hfull : 8 * front.length + 8 * bytes.length = 8 * (front ++ bytes).length := by
    rw [List.length_append]
    omega
  rwa [hempty, bitLength_raw, hfull, keepBits_all] at hpack

/-! ## The rows of the table -/

/-- **What holds of every row**: the operands fill the bytes behind the id
exactly, and none of them is a label. -/
def InstructionInfo.IsExact (row : InstructionInfo) : Prop :=
  1 ≤ row.length ∧ (row.kinds = [] ∨ row.bitLength = 8 * (row.length - 1))
    ∧ ∀ kind ∈ row.kinds, kind ≠ .label

instance : DecidablePred InstructionInfo.IsExact :=
  fun _ => inferInstanceAs (Decidable (_ ∧ _ ∧ _))

theorem isExact_table : ∀ row ∈ table.toList, row.IsExact := by decide +kernel

theorem info_mem_table (id : UInt8) : info id ∈ table.toList := by
  rw [Array.mem_toList_iff]
  exact Array.getElem_mem _

theorem isExact_info (id : UInt8) : (info id).IsExact := isExact_table _ (info_mem_table id)

theorem isTile_width (kind : OperandKind) : IsTile kind.width := by
  cases kind <;> decide

theorem isJump_iff {kind : OperandKind} :
    kind.isJump = true ↔ kind = .shortJump ∨ kind = .longJump := by
  cases kind <;> decide

theorem isTile_of_mem_formats {row : InstructionInfo} :
    ∀ format ∈ row.formats, IsTile format.width := by
  intro format hmem
  obtain ⟨kind, -, rfl⟩ := List.mem_map.mp hmem
  exact isTile_width kind

theorem kind_ne_label_of_mem_formats {id : UInt8} :
    ∀ format ∈ (info id).formats, format.kind ≠ .label := by
  intro format hmem
  obtain ⟨kind, hkind, rfl⟩ := List.mem_map.mp hmem
  exact (isExact_info id).2.2 kind hkind

/-- Operands in the formats of a row take up the bits of the row. -/
theorem bitLength_of_formats {row : InstructionInfo} {operands : List Operand}
    (h : operands.map Operand.format = row.formats) : bitLength operands = row.bitLength := by
  have hwidths : operands.map (fun operand => operand.format.width)
      = (operands.map Operand.format).map OperandFormat.width := (List.map_map ..).symm
  rw [bitLength, hwidths, h, InstructionInfo.formats, List.map_map]
  rfl

/-- **Operands in the formats of a row** fill the bytes behind the id. -/
theorem bitLength_of_kinds {id : UInt8} {operands : List Operand}
    (hkinds : ¬(info id).kinds.isEmpty = true)
    (h : operands.map Operand.format = (info id).formats) :
    bitLength operands = 8 * ((info id).length - 1) := by
  rw [bitLength_of_formats h]
  exact (isExact_info id).2.1.resolve_left (fun hnil => hkinds (by rw [hnil]; rfl))

theorem payloadLength_of_kinds {id : UInt8} {operands : List Operand}
    (hkinds : ¬(info id).kinds.isEmpty = true)
    (h : operands.map Operand.format = (info id).formats) :
    payloadLength operands = (info id).length - 1 := by
  rw [payloadLength, bitLength_of_kinds hkinds h]
  unfold BitPlace.span
  omega

/-! ## Instructions -/

namespace Instruction

variable {instruction : Instruction} {operands : List Operand}

theorem isLabel_withOperands (instruction : Instruction) (operands : List Operand) :
    (instruction.withOperands operands).isLabel = instruction.isLabel := by
  cases instruction <;> rfl

theorem operands_withOperands (hlabel : instruction.isLabel = false) (operands : List Operand) :
    (instruction.withOperands operands).operands = operands := by
  cases instruction with
  | label number => exact nomatch hlabel
  | _ => rfl

/-- The formats of its operands decide how long an instruction is. -/
theorem length_withOperands
    (hformats : operands.map Operand.format = instruction.operands.map Operand.format) :
    (instruction.withOperands operands).length = instruction.length := by
  have hpayload := payloadLength_congr hformats
  cases instruction with
  | label number => rfl
  | _ => exact congrArg (_ + ·) hpayload

end Instruction

/-- How many raw bytes an instruction without kinds has behind its id:
those of its row, and for `0x1C` as many more as its fifth byte says, up to
a limit. -/
def rawLength (id : UInt8) (operands : List Operand) : Nat :=
  (info id).length - 1 +
    if id = extendedId then
      min ((operands[4]?.map fun operand => (operand.value % 256).toNat).getD 0) maxExtraLength
    else 0

/-- The fifth of raw bytes states how many follow the fixed part. -/
theorem rawLength_map_raw (id : UInt8) (bytes : List UInt8) :
    rawLength id (bytes.map Operand.raw)
      = (info id).length - 1 +
        if id = extendedId then min ((bytes[4]?.map UInt8.toNat).getD 0) maxExtraLength else 0 := by
  have hsize : ∀ b : UInt8, ((Operand.raw b).value % 256).toNat = b.toNat := fun b => by
    have hb := b.toNat_lt
    show ((b.toNat : Int) % 256).toNat = b.toNat
    omega
  unfold rawLength
  rw [List.getElem?_map, Option.map_map]
  exact congrArg (fun size : UInt8 → Nat => (info id).length - 1 +
    if id = extendedId then min ((bytes[4]?.map size).getD 0) maxExtraLength else 0) (funext hsize)

/-- Whether operands are so many raw bytes, of any value. -/
def AreRaw (count : Nat) (operands : List Operand) : Prop :=
  operands.map Operand.format = List.replicate count rawFormat

instance (count : Nat) : DecidablePred (AreRaw count) :=
  fun _ => inferInstanceAs (Decidable (_ = _))

theorem AreRaw.format_eq {count : Nat} {operands : List Operand} (h : AreRaw count operands)
    {operand : Operand} (hmem : operand ∈ operands) : operand.format = rawFormat :=
  List.eq_of_mem_replicate (h ▸ List.mem_map_of_mem hmem)

namespace Instruction

/-- **The shape of an instruction**: the operands that its id calls for,
whatever their values. -/
def WellShaped : Instruction → Prop
  | ordinary id operands =>
    id ≠ specialId ∧ id ≠ kawaiId ∧
      if (info id).kinds.isEmpty then AreRaw (rawLength id operands) operands
      else operands.map Operand.format = (info id).formats
  | special sub operands => AreRaw (specialPayloadLength sub) operands
  | kawai _ operands => operands.length ≤ kawaiMaxPayload ∧ AreRaw operands.length operands
  | label _ => True

instance : DecidablePred WellShaped
  | ordinary id operands =>
    inferInstanceAs (Decidable (id ≠ specialId ∧ id ≠ kawaiId ∧
      if (info id).kinds.isEmpty then AreRaw (rawLength id operands) operands
      else operands.map Operand.format = (info id).formats))
  | special sub operands => inferInstanceAs (Decidable (AreRaw (specialPayloadLength sub) operands))
  | kawai _ operands =>
    inferInstanceAs (Decidable (operands.length ≤ kawaiMaxPayload ∧ AreRaw operands.length operands))
  | label _ => inferInstanceAs (Decidable True)

/-- **Values that can be stored** without loss. -/
def InRange (instruction : Instruction) : Prop :=
  ∀ operand ∈ instruction.operands, operand.format.holds operand.value = true

instance : DecidablePred InRange :=
  fun instruction => inferInstanceAs
    (Decidable (∀ operand ∈ instruction.operands, operand.format.holds operand.value = true))

/-- **What holds of the formats** of all rows, and of the raw one, holds of those of an
instruction with a shape. -/
theorem WellShaped.forall_format {P : OperandFormat → Prop} {instruction : Instruction}
    (h : instruction.WellShaped) (hraw : P rawFormat)
    (hrow : ∀ id, ∀ format ∈ (info id).formats, P format) :
    ∀ operand ∈ instruction.operands, P operand.format := by
  intro operand hmem
  cases instruction with
  | ordinary id operands =>
    obtain ⟨-, -, hformats⟩ := h
    split_ifs at hformats
    · exact hformats.format_eq hmem ▸ hraw
    · exact hrow id _ (hformats ▸ List.mem_map_of_mem hmem)
  | special sub operands => exact AreRaw.format_eq h hmem ▸ hraw
  | kawai sub operands => exact h.2.format_eq hmem ▸ hraw
  | label number => exact absurd hmem List.not_mem_nil

/-- **Every operand has the format of a kind.** -/
theorem WellShaped.exists_kind {instruction : Instruction} (h : instruction.WellShaped) :
    ∀ operand ∈ instruction.operands, ∃ kind : OperandKind, operand.format = kind.format :=
  h.forall_format (P := fun format => ∃ kind : OperandKind, format = kind.format)
    ⟨.unknown, rfl⟩ (fun _ _ hmem =>
      let ⟨kind, _, hkind⟩ := List.mem_map.mp hmem
      ⟨kind, hkind.symm⟩)

/-- **Raw bytes are no jumps**, so an instruction that holds the distance of one has the
operands of its row. -/
theorem WellShaped.exists_ordinary_of_isJump {instruction : Instruction}
    (h : instruction.WellShaped) {operand : Operand} (hmem : operand ∈ instruction.operands)
    (hjump : operand.format.kind.isJump = true) :
    ∃ id operands, instruction = ordinary id operands ∧ id ≠ specialId ∧ id ≠ kawaiId
      ∧ ¬(info id).kinds.isEmpty = true ∧ operands.map Operand.format = (info id).formats := by
  have hraw : ∀ {count operands}, AreRaw count operands → operand ∉ operands :=
    fun hraw hmem => by
      rw [hraw.format_eq hmem] at hjump
      exact nomatch hjump
  cases instruction with
  | ordinary id operands =>
    obtain ⟨hspecial, hkawai, hformats⟩ := h
    split_ifs at hformats with hkinds
    · exact absurd hmem (hraw hformats)
    · exact ⟨id, operands, rfl, hspecial, hkawai, hkinds, hformats⟩
  | special sub operands => exact absurd hmem (hraw h)
  | kawai sub operands => exact absurd hmem (hraw h.2)
  | label number => exact absurd hmem List.not_mem_nil

end Instruction

/-- Raw operands in range are bytes. -/
theorem eq_map_raw {count : Nat} {operands : List Operand} (hraw : AreRaw count operands)
    (hrange : ∀ operand ∈ operands, operand.format.holds operand.value = true) :
    ∃ bytes : List UInt8, bytes.length = count ∧ operands = bytes.map Operand.raw := by
  refine ⟨operands.map fun operand => UInt8.ofNat operand.value.toNat, ?_, ?_⟩
  · have hlen := congrArg List.length hraw
    rw [List.length_map, List.length_replicate] at hlen
    rw [List.length_map, hlen]
  · rw [List.map_map]
    conv_lhs => rw [← List.map_id operands]
    exact List.map_congr_left (fun operand hmem =>
      eq_raw_of_holds (hraw.format_eq hmem) (hrange operand hmem))

theorem areRaw_map_raw {count : Nat} {bytes : List UInt8} (h : bytes.length = count) :
    AreRaw count (bytes.map Operand.raw) :=
  h ▸ map_format_raw bytes

theorem inRange_map_raw (bytes : List UInt8) :
    ∀ operand ∈ bytes.map Operand.raw, operand.format.holds operand.value = true := by
  intro operand hmem
  obtain ⟨b, -, rfl⟩ := List.mem_map.mp hmem
  exact holds_raw b

end FieldMap
