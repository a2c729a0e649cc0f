import FieldMap.Proofs.BitLayout

/-!
# Where operands stand

Operands stand one behind the other, so each of them starts where the ones in front of it end
(`operandOffset`). Reading them is reading each at its own offset (`readOperands_eq_ok`).

Whether they can be packed and read there is a question of their widths alone. An operand fits
its offset if it lies inside of one byte or starts a byte (`BitPlace.Fits`), and packing
succeeds exactly if every operand fits, in a buffer that is as long as all operands together.
Such a buffer is never too short for one of them, although an operand of twelve bits takes two
whole bytes for itself: the bytes of a place end where its bits do. Otherwise the first operand
that does not fit decides the error (`packOperands_eq_error`).
-/

/-- What holds of every entry of a list holds of the first one and of the others. -/
theorem List.forall_getElem?_cons {α : Type} {P : Nat → α → Prop} {a : α} {l : List α} :
    (∀ i b, (a :: l)[i]? = some b → P i b) ↔ P 0 a ∧ ∀ i b, l[i]? = some b → P (i + 1) b := by
  constructor
  · exact fun h => ⟨h 0 a rfl, fun i b hb => h (i + 1) b hb⟩
  · rintro ⟨hfirst, hrest⟩ (_ | i) b hb
    · exact Option.some.inj hb ▸ hfirst
    · exact hrest i b hb

namespace FieldMap

/-! ## Bits that fit their offset -/

namespace BitPlace

/-- **Whether bits fit an offset**: fewer than eight have to lie in the same byte, the first of
them and the last, and any more of them have to start a byte. -/
def Fits (bitOffset width : Nat) : Prop :=
  1 ≤ width ∧ width ≤ 32 ∧
    if width < 8 then (bitOffset + width - 1) / 8 = bitOffset / 8 else 8 ∣ bitOffset

instance (bitOffset width : Nat) : Decidable (Fits bitOffset width) :=
  inferInstanceAs (Decidable (_ ∧ _ ∧ _))

theorem exists_locate_iff {bitOffset width : Nat} :
    (∃ place, locate bitOffset width = .ok place) ↔ Fits bitOffset width := by
  simp only [locate_eq_ok]
  unfold Fits
  constructor
  · rintro ⟨place, hpos, hle, -, hcase⟩
    split_ifs <;> omega
  · rintro ⟨hpos, hle, hcase⟩
    split_ifs at hcase with hnarrow
    · exact ⟨⟨bitOffset / 8, 8 - (bitOffset % 8 + width)⟩, by dsimp only; omega⟩
    · exact ⟨⟨bitOffset / 8, 0⟩, by dsimp only; omega⟩

/-- Where bits do not fit, they have no place, and the error names their offset and their
number. -/
theorem locate_eq_error {bitOffset width : Nat} (h : ¬Fits bitOffset width) :
    locate bitOffset width = .error (.misaligned bitOffset width) := by
  rw [← exists_locate_iff] at h
  unfold locate at h ⊢
  split_ifs at h ⊢
  · rfl
  · exact absurd ⟨_, rfl⟩ h
  · rfl
  · exact absurd ⟨_, rfl⟩ h
  · rfl

/-- The bytes of a place end where its bits do. -/
theorem end_le_of_locate {place : BitPlace} {bitOffset width : Nat}
    (hplace : locate bitOffset width = .ok place) :
    place.byte + span width ≤ span (bitOffset + width) := by
  obtain ⟨hpos, -, hbyte, hcase⟩ := locate_eq_ok.mp hplace
  unfold span
  omega

/-- The bytes of bits are there if the bits are. -/
theorem span_le_iff {width size : Nat} : span width ≤ size ↔ width ≤ 8 * size := by
  unfold span
  omega

/-- More bits take up no fewer bytes. -/
theorem span_le_span {width wider : Nat} (h : width ≤ wider) : span width ≤ span wider :=
  Nat.div_le_div_right (Nat.add_le_add_right h 7)

end BitPlace

/-! ## One operand behind the other -/

section Offsets

variable {bitOffset index : Nat} {format : OperandFormat} {formats rest : List OperandFormat}

/-- **Where the operand with an index starts**, if operands of these formats stand one behind the
other from a bit on. -/
def operandOffset (bitOffset : Nat) (formats : List OperandFormat) (index : Nat) : Nat :=
  bitOffset + ((formats.take index).map OperandFormat.width).sum

@[simp] theorem operandOffset_zero : operandOffset bitOffset formats 0 = bitOffset := rfl

theorem operandOffset_cons_succ :
    operandOffset bitOffset (format :: rest) (index + 1)
      = operandOffset (bitOffset + format.width) rest index := by
  rw [operandOffset, List.take_succ_cons, List.map_cons, List.sum_cons, ← Nat.add_assoc,
    operandOffset]

/-- An operand starts behind the bits of those in front of it. -/
theorem operandOffset_map_format (operands : List Operand) :
    operandOffset bitOffset (operands.map Operand.format) index
      = bitOffset + bitLength (operands.take index) := by
  rw [operandOffset, ← List.map_take, List.map_map]
  rfl

/-- **Operands are read one by one**, each where the ones in front of it end. -/
theorem readOperands_eq_ok {buffer : List UInt8} {operands : List Operand} :
    readOperands buffer bitOffset formats = .ok operands
      ↔ operands.map Operand.format = formats
        ∧ ∀ index operand, operands[index]? = some operand →
          readOperand buffer (operandOffset bitOffset formats index) operand.format.width
            operand.format.signed = .ok operand.value := by
  induction formats generalizing bitOffset operands with
  | nil =>
    rw [readOperands, Except.ok.injEq, List.map_eq_nil_iff, eq_comm]
    refine (and_iff_left_of_imp fun hnil index operand hget => ?_).symm
    rw [hnil, List.getElem?_nil] at hget
    exact absurd hget.symm (Option.some_ne_none operand)
  | cons format formats ih =>
    cases operands with
    | nil =>
      exact iff_of_false (fun h => List.cons_ne_nil _ _ (format_of_readOperands h).symm)
        (fun h => List.cons_ne_nil _ _ h.1.symm)
    | cons operand rest =>
      simp only [readOperands, Except.bind_eq_ok, ih, Except.pure_eq_ok, Except.ok.injEq,
        List.forall_getElem?_cons, operandOffset_cons_succ, List.map_cons, List.cons.injEq]
      constructor
      · rintro ⟨value, hvalue, rest, ⟨hformats, hrest⟩, rfl, rfl⟩
        exact ⟨⟨rfl, hformats⟩, hvalue, hrest⟩
      · rintro ⟨⟨rfl, hformats⟩, hvalue, hrest⟩
        exact ⟨_, hvalue, rest, ⟨hformats, hrest⟩, rfl, rfl⟩

/-! ## Operands that have places -/

/-- **Whether the operand with an index fits its offset**, if there is such an operand. -/
def FitsAt (bitOffset : Nat) (formats : List OperandFormat) (index : Nat) : Prop :=
  ∀ format, formats[index]? = some format →
    BitPlace.Fits (operandOffset bitOffset formats index) format.width

theorem forall_fitsAt_cons :
    (∀ index, FitsAt bitOffset (format :: rest) index)
      ↔ BitPlace.Fits bitOffset format.width
        ∧ ∀ index, FitsAt (bitOffset + format.width) rest index := by
  unfold FitsAt
  simp only [List.forall_getElem?_cons, operandOffset_cons_succ]
  rfl

/-- **Whether operands have places** one behind the other from a bit on. -/
def havePlaces (bitOffset : Nat) : List OperandFormat → Bool
  | [] => true
  | format :: rest =>
    (BitPlace.locate bitOffset format.width).isOk && havePlaces (bitOffset + format.width) rest

/-- **Operands have places** if each of them fits its offset. -/
theorem havePlaces_iff :
    havePlaces bitOffset formats = true ↔ ∀ index, FitsAt bitOffset formats index := by
  induction formats generalizing bitOffset with
  | nil => exact iff_of_true rfl (fun _ _ hget => nomatch hget)
  | cons format rest ih =>
    rw [havePlaces, Bool.and_eq_true, ih, Except.isOk_iff, BitPlace.exists_locate_iff,
      forall_fitsAt_cons]

/-- **The first operand without a place**: it does not fit its offset, and those in front of it
fit theirs. -/
def IsFirstMisfit (bitOffset : Nat) (formats : List OperandFormat) (index : Nat)
    (format : OperandFormat) : Prop :=
  formats[index]? = some format
    ∧ ¬BitPlace.Fits (operandOffset bitOffset formats index) format.width
    ∧ ∀ earlier < index, FitsAt bitOffset formats earlier

theorem exists_isFirstMisfit (h : ¬∀ index, FitsAt bitOffset formats index) :
    ∃ index format, IsFirstMisfit bitOffset formats index format := by
  classical
  rw [not_forall] at h
  have hmisfit := Nat.find_spec h
  rw [FitsAt, not_forall] at hmisfit
  obtain ⟨format, hmisfit⟩ := hmisfit
  rw [Classical.not_imp] at hmisfit
  exact ⟨Nat.find h, format, hmisfit.1, hmisfit.2,
    fun earlier hlt => not_not.mp (Nat.find_min h hlt)⟩

/-- Behind an operand that fits, the search goes on where it ends. -/
theorem IsFirstMisfit.tail {first : OperandFormat}
    (h : IsFirstMisfit bitOffset (first :: rest) (index + 1) format) :
    BitPlace.Fits bitOffset first.width
      ∧ IsFirstMisfit (bitOffset + first.width) rest index format := by
  obtain ⟨hget, hmisfit, hearlier⟩ := h
  rw [operandOffset_cons_succ] at hmisfit
  refine ⟨hearlier 0 (Nat.succ_pos index) first rfl, hget, hmisfit, fun earlier hlt other hother => ?_⟩
  have hfit := hearlier (earlier + 1) (Nat.succ_lt_succ hlt) other hother
  rwa [operandOffset_cons_succ] at hfit

end Offsets

/-! ## When packing and reading succeed -/

/-- An operand that has a place is packed, if the buffer holds the bits up to its
end. -/
theorem exists_packBits_eq_ok {place : BitPlace} {buffer : List UInt8} {bitOffset width : Nat}
    (hplace : BitPlace.locate bitOffset width = .ok place)
    (hlong : BitPlace.span (bitOffset + width) ≤ buffer.length) (value : Int) :
    ∃ packed, packBits buffer bitOffset width value = .ok packed
      ∧ packed.length = buffer.length := by
  obtain ⟨front, old, back, rfl, hfront, hlen⟩ :=
    exists_append_of_le ((BitPlace.end_le_of_locate hplace).trans hlong)
  refine ⟨_, packBits_append hplace hfront hlen value, ?_⟩
  simp only [List.length_append, place.length_stored hlen, hlen]

/-- **The step**: an operand that fits is packed, and leaves a buffer that is long enough for the
others. -/
theorem exists_packBits_of_fits {buffer : List UInt8} {bitOffset : Nat} {operand : Operand}
    {rest : List Operand} (hfit : BitPlace.Fits bitOffset operand.format.width)
    (hlong : BitPlace.span (bitOffset + bitLength (operand :: rest)) ≤ buffer.length) :
    ∃ next, packBits buffer bitOffset operand.format.width operand.value = .ok next
      ∧ next.length = buffer.length
      ∧ BitPlace.span (bitOffset + operand.format.width + bitLength rest) ≤ next.length := by
  obtain ⟨place, hplace⟩ := BitPlace.exists_locate_iff.mpr hfit
  rw [bitLength_cons, ← Nat.add_assoc] at hlong
  have hfirst : BitPlace.span (bitOffset + operand.format.width) ≤ buffer.length :=
    (BitPlace.span_le_span (Nat.le_add_right ..)).trans hlong
  obtain ⟨next, hnext, hlen⟩ := exists_packBits_eq_ok hplace hfirst operand.value
  exact ⟨next, hnext, hlen, hlen ▸ hlong⟩

/-- **Packing succeeds** if all operands have places, in a buffer that is long enough
for all of them. -/
theorem exists_packOperands_eq_ok {buffer : List UInt8} {bitOffset : Nat} {operands : List Operand}
    (hplaces : havePlaces bitOffset (operands.map Operand.format) = true)
    (hlong : BitPlace.span (bitOffset + bitLength operands) ≤ buffer.length) :
    ∃ packed, packOperands buffer bitOffset operands = .ok packed
      ∧ packed.length = buffer.length := by
  rw [havePlaces_iff] at hplaces
  induction operands generalizing buffer bitOffset with
  | nil => exact ⟨buffer, rfl, rfl⟩
  | cons operand rest ih =>
    rw [List.map_cons, forall_fitsAt_cons] at hplaces
    obtain ⟨next, hnext, hlen, hrest⟩ := exists_packBits_of_fits hplaces.1 hlong
    obtain ⟨packed, hpacked, hpackedlen⟩ := ih hplaces.2 hrest
    refine ⟨packed, ?_, hpackedlen.trans hlen⟩
    rw [packOperands, hnext, Except.ok_bind, hpacked]

/-- **Packing fails at the first operand without a place**, and the error names its offset and its
width. -/
theorem packOperands_eq_error {buffer : List UInt8} {bitOffset : Nat} {operands : List Operand}
    {index : Nat} {format : OperandFormat}
    (hlong : BitPlace.span (bitOffset + bitLength operands) ≤ buffer.length)
    (h : IsFirstMisfit bitOffset (operands.map Operand.format) index format) :
    packOperands buffer bitOffset operands
      = .error (.misaligned (operandOffset bitOffset (operands.map Operand.format) index)
          format.width) := by
  induction operands generalizing buffer bitOffset index with
  | nil => exact nomatch h.1
  | cons first rest ih =>
    rw [List.map_cons] at h ⊢
    cases index with
    | zero =>
      obtain ⟨hget, hmisfit, -⟩ := h
      obtain rfl := Option.some.inj hget
      rw [packOperands]
      unfold packBits
      rw [operandOffset_zero] at hmisfit ⊢
      rw [BitPlace.locate_eq_error hmisfit]
      rfl
    | succ index =>
      obtain ⟨hfit, hmisfit⟩ := h.tail
      obtain ⟨next, hnext, -, hrest⟩ := exists_packBits_of_fits hfit hlong
      rw [packOperands, hnext, Except.ok_bind, ih hrest hmisfit, operandOffset_cons_succ]

/-- **Packing succeeds exactly if every operand fits its offset**, in a buffer that is long enough
for all of them. -/
theorem exists_packOperands_eq_ok_iff {buffer : List UInt8} {bitOffset : Nat}
    {operands : List Operand}
    (hlong : BitPlace.span (bitOffset + bitLength operands) ≤ buffer.length) :
    (∃ packed, packOperands buffer bitOffset operands = .ok packed)
      ↔ ∀ index, FitsAt bitOffset (operands.map Operand.format) index := by
  constructor
  · rintro ⟨packed, hpacked⟩
    by_contra h
    obtain ⟨index, format, hmisfit⟩ := exists_isFirstMisfit h
    exact nomatch (packOperands_eq_error hlong hmisfit).symm.trans hpacked
  · intro h
    obtain ⟨packed, hpacked, -⟩ := exists_packOperands_eq_ok (havePlaces_iff.mpr h) hlong
    exact ⟨packed, hpacked⟩

/-- An operand that has a place is read, if the buffer holds the bits up to its end. -/
theorem exists_readOperand_eq_ok {place : BitPlace} {buffer : List UInt8} {bitOffset width : Nat}
    (hplace : BitPlace.locate bitOffset width = .ok place)
    (hlong : BitPlace.span (bitOffset + width) ≤ buffer.length) (signed : Bool) :
    ∃ value, readOperand buffer bitOffset width signed = .ok value := by
  obtain ⟨part, hpart⟩ :=
    exists_window_eq_ok .operand ((BitPlace.end_le_of_locate hplace).trans hlong)
  unfold readOperand unpackBits
  rw [hplace, Except.ok_bind, hpart]
  exact ⟨_, rfl⟩

/-- **Reading succeeds** if all formats have places, from a buffer that is long enough
for all of them. -/
theorem exists_readOperands_eq_ok {buffer : List UInt8} {bitOffset : Nat}
    {formats : List OperandFormat} (hplaces : havePlaces bitOffset formats = true)
    (hlong : BitPlace.span (bitOffset + (formats.map OperandFormat.width).sum) ≤ buffer.length) :
    ∃ operands, readOperands buffer bitOffset formats = .ok operands := by
  induction formats generalizing bitOffset with
  | nil => exact ⟨[], rfl⟩
  | cons format rest ih =>
    rw [havePlaces, Bool.and_eq_true] at hplaces
    obtain ⟨hplace, hplaces⟩ := hplaces
    rw [List.map_cons, List.sum_cons, ← Nat.add_assoc] at hlong
    obtain ⟨place, hplace⟩ := Except.isOk_iff.mp hplace
    have hfirst : BitPlace.span (bitOffset + format.width) ≤ buffer.length :=
      (BitPlace.span_le_span (Nat.le_add_right ..)).trans hlong
    obtain ⟨value, hvalue⟩ := exists_readOperand_eq_ok hplace hfirst format.signed
    obtain ⟨operands, hoperands⟩ := ih hplaces hlong
    refine ⟨⟨format, value⟩ :: operands, ?_⟩
    rw [readOperands, hvalue, Except.ok_bind, hoperands]
    rfl

end FieldMap
