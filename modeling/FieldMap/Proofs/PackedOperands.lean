import FieldMap.Proofs.OperandPlaces
import FieldMap.Proofs.Shape

/-!
# What is written is what gets read

Operands that are packed into an empty buffer are read back as the values
that their formats can hold. A value outside the range of its format comes
back as the one value in range that differs from it by a multiple of
`2 ^ width`, which is what `OperandFormat.wrap` computes and
`OperandFormat.wrap_eq_iff` says of it. Its neighbours do not notice.

A buffer is *empty from a bit on* if keeping the bits in front of it changes
nothing. Packing an operand at that bit leaves the bits in front as they are,
puts the stored bits behind them and leaves the buffer empty from there on
(`keepBits_of_packBits`, `unpackBits_of_packBits`, `isEmptyFrom_of_packBits`).
What was packed earlier is read from the bits in front, and these three facts
carry an induction over the operands (`keepBits_of_packOperands`,
`unpackBits_of_packOperands`).
-/

namespace FieldMap

/-! ## The value that comes back -/

namespace OperandFormat

/-- **The value of a format that is stored for a value**: the one in range
that differs from it by a multiple of `2 ^ width`. -/
def wrap (format : OperandFormat) (value : Int) : Int :=
  format.min + (value - format.min) % 2 ^ format.width

/-- A format other than that of labels has `2 ^ width` values. -/
theorem max_eq {format : OperandFormat} (hkind : format.kind ≠ .label) (hwidth : 0 < format.width) :
    format.max = format.min + 2 ^ format.width - 1 := by
  have hpow : (2 : Int) ^ format.width = 2 * 2 ^ (format.width - 1) := by
    rw [← pow_succ', Nat.sub_add_cancel hwidth]
  unfold OperandFormat.max OperandFormat.min
  cases hsigned : format.signed with
  | true =>
    simp only [hkind, if_true, if_false, false_or, Bool.true_eq_false]
    omega
  | false =>
    simp only [hkind, if_true, if_false, or_true, Bool.false_eq_true]
    omega

theorem wrap_modEq (format : OperandFormat) (value : Int) :
    format.wrap value ≡ value [ZMOD 2 ^ format.width] := by
  have h := (Int.mod_modEq (value - format.min) (2 ^ format.width)).add_left format.min
  rwa [add_sub_cancel] at h

/-- **The stored value is the only one** that is in range and differs from the
given one by a multiple of `2 ^ width`. -/
theorem wrap_eq_iff {format : OperandFormat} (hkind : format.kind ≠ .label)
    (hwidth : 0 < format.width) {value stored : Int} :
    format.wrap value = stored
      ↔ format.holds stored = true ∧ stored ≡ value [ZMOD 2 ^ format.width] := by
  have hpos : (0 : Int) < 2 ^ format.width := by positivity
  rw [holds_iff, max_eq hkind hwidth]
  constructor
  · rintro rfl
    have hlow := Int.emod_nonneg (value - format.min) hpos.ne'
    have hhigh := Int.emod_lt_of_pos (value - format.min) hpos
    refine ⟨?_, wrap_modEq format value⟩
    unfold wrap
    omega
  · rintro ⟨hrange, hcongr⟩
    have hrem : (stored - format.min) % 2 ^ format.width = (value - format.min) % 2 ^ format.width :=
      hcongr.sub_right format.min
    rw [Int.emod_eq_of_lt (by omega) (by omega)] at hrem
    unfold wrap
    omega

theorem holds_wrap {format : OperandFormat} (hkind : format.kind ≠ .label)
    (hwidth : 0 < format.width) (value : Int) : format.holds (format.wrap value) = true :=
  ((wrap_eq_iff hkind hwidth).mp rfl).1

/-- A value in range is stored as it is. -/
theorem wrap_of_holds {format : OperandFormat} (hkind : format.kind ≠ .label)
    (hwidth : 0 < format.width) {value : Int} (h : format.holds value = true) :
    format.wrap value = value :=
  (wrap_eq_iff hkind hwidth).mpr ⟨h, Int.ModEq.refl value⟩

end OperandFormat

/-- Values are stored alike if they differ by a multiple of `2 ^ width`. -/
theorem storedBits_eq_iff {width : Nat} {a b : Int} :
    storedBits width a = storedBits width b ↔ a ≡ b [ZMOD 2 ^ width] := by
  have hpos : (2 : Int) ^ width ≠ 0 := by positivity
  have ha := Int.emod_nonneg a hpos
  have hb := Int.emod_nonneg b hpos
  unfold storedBits Int.ModEq
  omega

theorem storedBits_lt (width : Nat) (value : Int) : storedBits width value < 2 ^ width := by
  have hpos : (0 : Int) < 2 ^ width := by positivity
  have hlt := Int.emod_lt_of_pos value hpos
  have hnonneg := Int.emod_nonneg value hpos.ne'
  unfold storedBits
  zify
  rwa [Int.toNat_of_nonneg hnonneg]

namespace Operand

/-- The operand with the value that is stored for its value. -/
def wrapped (operand : Operand) : Operand := ⟨operand.format, operand.format.wrap operand.value⟩

theorem storedBits_wrapped (operand : Operand) :
    storedBits operand.format.width operand.wrapped.value
      = storedBits operand.format.width operand.value :=
  storedBits_eq_iff.mpr (operand.format.wrap_modEq operand.value)

@[simp] theorem map_format_wrapped (operands : List Operand) :
    (operands.map wrapped).map Operand.format = operands.map Operand.format :=
  List.map_map ..

end Operand

/-- **Stored bits are read** as a value that differs from theirs by a multiple of
`2 ^ width`. -/
theorem exists_readOperand_of_unpackBits {buffer : List UInt8} {bitOffset width : Nat} {value : Int}
    (h : unpackBits buffer bitOffset width = .ok (storedBits width value)) (signed : Bool) :
    ∃ read, readOperand buffer bitOffset width signed = .ok read ∧ read ≡ value [ZMOD 2 ^ width] := by
  obtain ⟨read, hread⟩ : ∃ read, readOperand buffer bitOffset width signed = .ok read := by
    unfold readOperand
    rw [h]
    exact ⟨_, rfl⟩
  have hbits := storedBits_of_readOperand hread
  rw [h, Except.ok.injEq] at hbits
  exact ⟨read, hread, storedBits_eq_iff.mp hbits.symm⟩

/-- In a format this is the value that is stored for theirs. -/
theorem readOperand_of_unpackBits {format : OperandFormat} {buffer : List UInt8} {bitOffset : Nat}
    {value : Int} (hkind : format.kind ≠ .label)
    (h : unpackBits buffer bitOffset format.width = .ok (storedBits format.width value)) :
    readOperand buffer bitOffset format.width format.signed = .ok (format.wrap value) := by
  obtain ⟨read, hread, hcongr⟩ := exists_readOperand_of_unpackBits h format.signed
  have hwrap := (OperandFormat.wrap_eq_iff hkind (lt_of_unpackBits h).1).mpr
    ⟨OperandFormat.holds_of_readOperand hkind hread, hcongr⟩
  rw [hread, hwrap]

/-- **Packing does not see** by how many multiples of `2 ^ width` a value is out
of range. -/
theorem packOperands_wrapped (buffer : List UInt8) (bitOffset : Nat) (operands : List Operand) :
    packOperands buffer bitOffset (operands.map Operand.wrapped)
      = packOperands buffer bitOffset operands := by
  induction operands generalizing buffer bitOffset with
  | nil => rfl
  | cons operand rest ih =>
    have hbits : packBits buffer bitOffset operand.format.width operand.wrapped.value
        = packBits buffer bitOffset operand.format.width operand.value := by
      unfold packBits
      rw [operand.storedBits_wrapped]
    rw [List.map_cons, packOperands, packOperands]
    show (packBits buffer bitOffset operand.format.width operand.wrapped.value >>= _) = _
    rw [hbits]
    exact congrArg (_ >>= ·) (funext fun packed => ih packed _)

/-! ## Bits in front -/

theorem length_keepBits (count : Nat) (bs : List UInt8) : (keepBits count bs).length = bs.length := by
  induction bs generalizing count with
  | nil => rfl
  | cons b bs ih => rw [keepBits, List.length_cons, ih, List.length_cons]

theorem highBits_highBits {a b : Nat} (h : a ≤ b) (byte : UInt8) :
    highBits a (highBits b byte) = highBits a byte := by
  apply UInt8.toNat_inj.mp
  have hpow : 2 ^ (8 - a) = 2 ^ (8 - b) * 2 ^ (8 - a - (8 - b)) := by
    rw [← pow_add]
    congr 1
    omega
  rw [toNat_highBits, toNat_highBits, toNat_highBits, hpow, ← Nat.div_div_eq_div_mul,
    Nat.mul_div_cancel _ (by positivity), Nat.div_div_eq_div_mul]

/-- The first bits of the first bits are the first bits. -/
theorem keepBits_keepBits {a b : Nat} (h : a ≤ b) (bs : List UInt8) :
    keepBits a (keepBits b bs) = keepBits a bs := by
  induction bs generalizing a b with
  | nil => rfl
  | cons byte bs ih =>
    rw [keepBits, keepBits, keepBits, highBits_highBits h, ih (Nat.sub_le_sub_right h 8)]

/-- **Whether a buffer is empty from a bit on.** -/
def IsEmptyFrom (bitOffset : Nat) (buffer : List UInt8) : Prop := keepBits bitOffset buffer = buffer

/-- A header with nothing behind it. -/
theorem isEmptyFrom_header (header : List UInt8) (count : Nat) :
    IsEmptyFrom (8 * header.length) (header ++ List.replicate count 0) := by
  have h := keepBits_append header (List.replicate count 0) 0
  rwa [Nat.add_zero, keepBits_zero, List.length_replicate] at h

/-! ## Packing one operand -/

section Packing

variable {buffer packed : List UInt8} {bitOffset width : Nat} {value : Int}

/-- Bits at a place are read from the bytes of the place. -/
theorem unpackBits_append {place : BitPlace} {front part back : List UInt8}
    (hplace : BitPlace.locate bitOffset width = .ok place) (hfront : front.length = place.byte)
    (hpart : part.length = BitPlace.span width) :
    unpackBits (front ++ (part ++ back)) bitOffset width
      = .ok (ofLittleEndian part / 2 ^ place.shift % 2 ^ width) := by
  unfold unpackBits
  rw [hplace, Except.ok_bind, window_append front back hfront hpart]
  rfl

/-- **Packing that succeeds** has a place, and replaces its bytes. -/
theorem packBits_eq_ok (h : packBits buffer bitOffset width value = .ok packed) :
    ∃ place front old back, BitPlace.locate bitOffset width = .ok place
      ∧ buffer = front ++ (old ++ back) ∧ front.length = place.byte
      ∧ old.length = BitPlace.span width
      ∧ packed = front ++ (place.stored width value old ++ back) := by
  have hparts := h
  unfold packBits at hparts
  obtain ⟨place, hplace, hparts⟩ := Except.bind_eq_ok.mp hparts
  obtain ⟨old, hold, -⟩ := Except.bind_eq_ok.mp hparts
  have hwidth := (BitPlace.locate_eq_ok.mp hplace).1
  obtain ⟨front, back, rfl, hfront, hlen⟩ := append_of_window hold (BitPlace.span_pos hwidth)
  refine ⟨place, front, old, back, hplace, rfl, hfront, hlen, ?_⟩
  rw [packBits_append hplace hfront hlen, Except.ok.injEq] at h
  exact h.symm

/-- Bits are seen where they were added, as a disjunction. -/
theorem or_shifted_div_mod {bits shift : Nat} (hbits : bits < 2 ^ width) (n : Nat) :
    (n ||| bits * 2 ^ shift) / 2 ^ shift % 2 ^ width = n / 2 ^ shift % 2 ^ width ||| bits := by
  rw [Nat.or_div_two_pow, Nat.mul_div_cancel _ (by positivity), Nat.or_mod_two_pow,
    Nat.mod_eq_of_lt hbits]

/-- **What is read from a place that was packed into.** -/
theorem unpackBits_stored {place : BitPlace} {front old : List UInt8} (back : List UInt8)
    (hplace : BitPlace.locate bitOffset width = .ok place) (hfront : front.length = place.byte)
    (hold : old.length = BitPlace.span width) (value : Int) :
    unpackBits (front ++ (place.stored width value old ++ back)) bitOffset width
      = .ok (if width < 8 then
            ofLittleEndian old / 2 ^ place.shift % 2 ^ width ||| storedBits width value
          else storedBits width value) := by
  obtain ⟨hpos, -, -, hcase⟩ := BitPlace.locate_eq_ok.mp hplace
  have hbits := storedBits_lt width value
  rw [unpackBits_append hplace hfront (place.length_stored hold value)]
  rcases hcase with ⟨hnarrow, hfit, hshift⟩ | ⟨hwide, -, hshift⟩
  · obtain ⟨b, rfl⟩ := BitPlace.exists_eq_singleton hpos hnarrow hold
    rw [place.stored_narrow hnarrow, if_pos hnarrow, ofLittleEndian_singleton,
      ofLittleEndian_singleton, toNat_or_shifted (by omega) hbits, or_shifted_div_mod hbits]
  · rw [place.stored_wide hwide, if_neg (by omega), ofLittleEndian_toLittleEndian, hshift, pow_zero,
      Nat.div_one, Nat.mod_eq_of_lt (hbits.trans_le (BitPlace.two_pow_le_span width)),
      Nat.mod_eq_of_lt hbits]

/-- A byte whose bits from some on are empty is a multiple of the weight of the last one in front
of them. -/
theorem toNat_eq_of_highBits_eq {used rest : Nat} {b : UInt8} (hrest : 8 - used = rest)
    (hempty : highBits used b = b) : b.toNat = 2 ^ rest * (b.toNat / 2 ^ rest) := by
  have h := congrArg UInt8.toNat hempty
  rw [toNat_highBits, hrest] at h
  rw [Nat.mul_comm]
  exact h.symm

/-- **Adding bits to a byte** whose bits from there on are empty leaves those in front as they
are. -/
theorem highBits_or_shifted {used bits : Nat} {b : UInt8} (hfit : used + width ≤ 8)
    (hbits : bits < 2 ^ width) (hempty : highBits used b = b) :
    highBits used (b ||| UInt8.ofNat (bits * 2 ^ (8 - (used + width)))) = b := by
  set shift := 8 - (used + width) with hshift
  have hused : 8 - used = width + shift := by omega
  have hlow := shifted_lt hbits shift
  have hb := toNat_eq_of_highBits_eq hused hempty
  have hsum : (b ||| UInt8.ofNat (bits * 2 ^ shift)).toNat
      = 2 ^ (width + shift) * (b.toNat / 2 ^ (width + shift)) + bits * 2 ^ shift := by
    rw [toNat_or_shifted (by omega) hbits, Nat.two_pow_add_eq_or_of_lt hlow, ← hb]
  apply UInt8.toNat_inj.mp
  rw [toNat_highBits, hused, hsum, Nat.mul_add_div (by positivity), Nat.div_eq_of_lt hlow,
    Nat.add_zero, Nat.mul_comm]
  exact hb.symm

/-- Empty bits of a byte are read as zero. -/
theorem div_mod_eq_zero_of_highBits_eq {used : Nat} {b : UInt8} (hfit : used + width ≤ 8)
    (hempty : highBits used b = b) :
    b.toNat / 2 ^ (8 - (used + width)) % 2 ^ width = 0 := by
  set shift := 8 - (used + width) with hshift
  have hb := toNat_eq_of_highBits_eq (by omega : 8 - used = width + shift) hempty
  rw [hb, pow_add, Nat.mul_comm (2 ^ width), Nat.mul_assoc,
    Nat.mul_div_cancel_left _ (by positivity), Nat.mul_mod_right]

/-- The byte in which a narrow operand lies is empty behind the bits in
front. -/
theorem highBits_of_isEmptyFrom {front back : List UInt8} {b : UInt8}
    (hfront : front.length = bitOffset / 8)
    (hempty : IsEmptyFrom bitOffset (front ++ ([b] ++ back))) :
    highBits (bitOffset % 8) b = b ∧ back = List.replicate back.length 0 := by
  have hoffset : bitOffset = 8 * front.length + bitOffset % 8 := by omega
  unfold IsEmptyFrom at hempty
  rw [hoffset, keepBits_append, List.singleton_append, keepBits_cons (by omega),
    List.append_right_inj, List.cons.injEq] at hempty
  exact ⟨hempty.1, hempty.2.symm⟩

/-- **The bits in front stay as they are.** -/
theorem keepBits_of_packBits (hempty : IsEmptyFrom bitOffset buffer)
    (h : packBits buffer bitOffset width value = .ok packed) : keepBits bitOffset packed = buffer := by
  obtain ⟨place, front, old, back, hplace, rfl, hfront, hlen, rfl⟩ := packBits_eq_ok h
  obtain ⟨hpos, -, hbyte, hcase⟩ := BitPlace.locate_eq_ok.mp hplace
  have hoffset : bitOffset = 8 * front.length + bitOffset % 8 := by omega
  rcases hcase with ⟨hnarrow, hfit, hshift⟩ | ⟨-, haligned, -⟩
  · obtain ⟨b, rfl⟩ := BitPlace.exists_eq_singleton hpos hnarrow hlen
    obtain ⟨hb, hback⟩ := highBits_of_isEmptyFrom (hfront.trans hbyte) hempty
    have hadded := highBits_or_shifted hfit (storedBits_lt width value) hb
    conv_lhs => rw [hoffset]
    rw [place.stored_narrow hnarrow, hshift, keepBits_append, List.singleton_append,
      keepBits_cons (by omega), hadded, List.singleton_append, ← hback]
  · -- nothing has been written from the first byte of the place on
    rw [IsEmptyFrom] at hempty
    rw [hoffset, haligned, keepBits_append, keepBits_zero] at hempty ⊢
    rw [← hempty, List.length_append, List.length_append, place.length_stored hlen, hlen]

/-- **The packed bits can be read.** -/
theorem unpackBits_of_packBits (hempty : IsEmptyFrom bitOffset buffer)
    (h : packBits buffer bitOffset width value = .ok packed) :
    unpackBits packed bitOffset width = .ok (storedBits width value) := by
  obtain ⟨place, front, old, back, hplace, rfl, hfront, hlen, rfl⟩ := packBits_eq_ok h
  obtain ⟨hpos, -, hbyte, hcase⟩ := BitPlace.locate_eq_ok.mp hplace
  rw [unpackBits_stored back hplace hfront hlen]
  rcases hcase with ⟨hnarrow, hfit, hshift⟩ | ⟨hwide, -, -⟩
  · -- the bits of the place are empty, so that nothing is added to what is packed
    obtain ⟨b, rfl⟩ := BitPlace.exists_eq_singleton hpos hnarrow hlen
    obtain ⟨hb, -⟩ := highBits_of_isEmptyFrom (hfront.trans hbyte) hempty
    rw [if_pos hnarrow, ofLittleEndian_singleton, hshift, div_mod_eq_zero_of_highBits_eq hfit hb,
      Nat.zero_or]
  · rw [if_neg (by omega)]

/-- **Behind the packed bits the buffer is empty.** -/
theorem isEmptyFrom_of_packBits (htile : IsTile width) (hempty : IsEmptyFrom bitOffset buffer)
    (h : packBits buffer bitOffset width value = .ok packed) :
    IsEmptyFrom (bitOffset + width) packed := by
  have hagain := packBits_keepBits htile (unpackBits_of_packBits hempty h)
  rw [keepBits_of_packBits hempty h, h, Except.ok.injEq] at hagain
  exact hagain.symm

/-- Clearing bits behind an operand does not change what is read. -/
theorem unpackBits_keepBits {bits count : Nat} (htile : IsTile width)
    (hcount : bitOffset + width ≤ count) (h : unpackBits buffer bitOffset width = .ok bits) :
    unpackBits (keepBits count buffer) bitOffset width = .ok bits := by
  obtain ⟨place, front, part, back, hplace, rfl, hfront, hlen, rfl⟩ := unpackBits_eq_ok h
  obtain ⟨hpos, -, hbyte, hcase⟩ := BitPlace.locate_eq_ok.mp hplace
  obtain ⟨kept, rfl⟩ : ∃ kept, count = 8 * front.length + kept :=
    ⟨count - 8 * front.length, by omega⟩
  rw [keepBits_append]
  rcases hcase with ⟨hnarrow, hfit, hshift⟩ | ⟨hwide, haligned, hshift⟩
  · obtain ⟨b, rfl⟩ := BitPlace.exists_eq_singleton hpos hnarrow hlen
    -- the cleared bits are below the shift
    have hhigh : (highBits kept b).toNat / 2 ^ place.shift = b.toNat / 2 ^ place.shift := by
      have hpow : 2 ^ place.shift = 2 ^ (8 - kept) * 2 ^ (place.shift - (8 - kept)) := by
        rw [← pow_add]
        congr 1
        omega
      rw [toNat_highBits, hpow, ← Nat.div_div_eq_div_mul, Nat.mul_div_cancel _ (by positivity),
        Nat.div_div_eq_div_mul]
    have hkept : keepBits kept ([b] ++ back) = [highBits kept b] ++ keepBits (kept - 8) back := rfl
    rw [hkept, unpackBits_append hplace hfront (by rw [← hlen]; rfl), ofLittleEndian_singleton,
      ofLittleEndian_singleton, hhigh]
  · have hbytes := htile.eq_length hwide hlen
    obtain ⟨more, rfl⟩ : ∃ more, kept = 8 * part.length + more := ⟨kept - 8 * part.length, by omega⟩
    rw [keepBits_append, unpackBits_append hplace hfront hlen]

/-- **Bits that stand in front of others** are read without these. -/
theorem unpackBits_of_keepBits {bits count : Nat} (htile : IsTile width)
    (hcount : bitOffset + width ≤ count)
    (h : unpackBits (keepBits count buffer) bitOffset width = .ok bits) :
    unpackBits buffer bitOffset width = .ok bits := by
  obtain ⟨place, front, part, back, hplace, hkept, hfront, hlen, -⟩ := unpackBits_eq_ok h
  have hle : place.byte + BitPlace.span width ≤ buffer.length := by
    rw [← length_keepBits count buffer, hkept, List.length_append, List.length_append]
    omega
  obtain ⟨first, old, last, rfl, hfirst, holdlen⟩ := exists_append_of_le hle
  have hread : unpackBits (first ++ (old ++ last)) bitOffset width = _ :=
    unpackBits_append hplace hfirst holdlen
  rw [unpackBits_keepBits htile hcount hread] at h
  rw [hread, h]

end Packing

/-! ## Packing operands one behind the other -/

section Operands

variable {buffer packed : List UInt8} {bitOffset : Nat} {operands : List Operand}

/-- **The bits in front of the operands stay as they are**, and those behind them stay
empty. -/
theorem keepBits_of_packOperands (htiles : ∀ operand ∈ operands, IsTile operand.format.width)
    (hempty : IsEmptyFrom bitOffset buffer)
    (h : packOperands buffer bitOffset operands = .ok packed) :
    keepBits bitOffset packed = buffer ∧ IsEmptyFrom (bitOffset + bitLength operands) packed := by
  induction operands generalizing buffer bitOffset with
  | nil =>
    rw [packOperands, Except.ok.injEq] at h
    exact ⟨h ▸ hempty, h ▸ hempty⟩
  | cons operand rest ih =>
    rw [packOperands] at h
    obtain ⟨next, hnext, h⟩ := Except.bind_eq_ok.mp h
    rw [List.forall_mem_cons] at htiles
    obtain ⟨hfront, hback⟩ := ih htiles.2 (isEmptyFrom_of_packBits htiles.1 hempty hnext) h
    constructor
    · rw [← keepBits_keepBits (Nat.le_add_right ..) packed, hfront, keepBits_of_packBits hempty hnext]
    · rwa [bitLength_cons, ← Nat.add_assoc]

/-- **The bits of every operand can be read** where the operand stands. -/
theorem unpackBits_of_packOperands (htiles : ∀ operand ∈ operands, IsTile operand.format.width)
    (hempty : IsEmptyFrom bitOffset buffer)
    (h : packOperands buffer bitOffset operands = .ok packed) :
    ∀ index operand, operands[index]? = some operand →
      unpackBits packed (operandOffset bitOffset (operands.map Operand.format) index)
        operand.format.width = .ok (storedBits operand.format.width operand.value) := by
  induction operands generalizing buffer bitOffset with
  | nil => exact fun _ _ hget => nomatch hget
  | cons operand rest ih =>
    rw [packOperands] at h
    obtain ⟨next, hnext, h⟩ := Except.bind_eq_ok.mp h
    rw [List.forall_mem_cons] at htiles
    have hnextempty := isEmptyFrom_of_packBits htiles.1 hempty hnext
    -- the operands behind the first one leave its bits as they are
    have hfront := (keepBits_of_packOperands htiles.2 hnextempty h).1
    rw [List.forall_getElem?_cons, List.map_cons]
    refine ⟨unpackBits_of_keepBits htiles.1 le_rfl ?_, fun index other hget => ?_⟩
    · exact hfront.symm ▸ unpackBits_of_packBits hempty hnext
    · rw [operandOffset_cons_succ]
      exact ih htiles.2 hnextempty h index other hget

/-- **What was packed is read back**, with every value as it is stored. -/
theorem readOperands_of_packOperands
    (hformats : ∀ operand ∈ operands, operand.format.kind ≠ .label ∧ IsTile operand.format.width)
    (hempty : IsEmptyFrom bitOffset buffer)
    (h : packOperands buffer bitOffset operands = .ok packed) :
    readOperands packed bitOffset (operands.map Operand.format)
      = .ok (operands.map Operand.wrapped) := by
  refine readOperands_eq_ok.mpr ⟨Operand.map_format_wrapped operands, fun index stored hget => ?_⟩
  rw [List.getElem?_map, Option.map_eq_some_iff] at hget
  obtain ⟨operand, hget, rfl⟩ := hget
  have hbits := unpackBits_of_packOperands (fun o ho => (hformats o ho).2) hempty h index operand hget
  exact readOperand_of_unpackBits (hformats operand (List.mem_of_getElem? hget)).1 hbits

end Operands

end FieldMap
