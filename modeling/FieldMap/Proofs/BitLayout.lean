import FieldMap.Script.BitLayout
import FieldMap.Proofs.Readers
import Mathlib.Tactic

/-!
# What is read is what gets written

Operands that were read from a buffer and are packed into an empty one
give back the bits that they were read from. Half-way through, the buffer
that is being filled holds the bits of the original up to the current
offset and zeros behind them: `keepBits` is that buffer, and
`packBits_keepBits` says that packing one operand moves its offset by the
width of the operand. The rest is an induction over the operands
(`packOperands_keepBits`).

The step needs each operand to fill either a part of one byte or whole
bytes (`IsTile`). An operand of twelve bits would clear the four bits
behind it. All formats of the instruction set are of this kind.
-/

namespace FieldMap

/-! ## Places -/

namespace BitPlace

theorem locate_eq_ok {bitOffset width : Nat} {place : BitPlace} :
    locate bitOffset width = .ok place
      ↔ 0 < width ∧ width ≤ 32 ∧ place.byte = bitOffset / 8
        ∧ ((width < 8 ∧ bitOffset % 8 + width ≤ 8
              ∧ place.shift = 8 - (bitOffset % 8 + width))
          ∨ (8 ≤ width ∧ bitOffset % 8 = 0 ∧ place.shift = 0)) := by
  obtain ⟨byte, shift⟩ := place
  unfold locate
  split_ifs with h0 h8 hfit hbyte
  · exact iff_of_false (fun h => nomatch h) (fun h => by omega)
  · rw [Except.ok.injEq, BitPlace.mk.injEq]
    dsimp only
    omega
  · exact iff_of_false (fun h => nomatch h) (fun h => by omega)
  · rw [Except.ok.injEq, BitPlace.mk.injEq]
    dsimp only
    omega
  · exact iff_of_false (fun h => nomatch h) (fun h => by omega)

theorem span_pos {width : Nat} (h : 0 < width) : 0 < span width := by
  unfold span
  omega

/-- A part of one byte has that byte as its place. -/
theorem exists_eq_singleton {width : Nat} {part : List UInt8} (hpos : 0 < width) (hnarrow : width < 8)
    (hlen : part.length = span width) : ∃ b, part = [b] := by
  rw [← List.length_eq_one_iff, hlen]
  unfold span
  omega

/-- The bytes of a place are wide enough for its bits. -/
theorem two_pow_le_span (width : Nat) : 2 ^ width ≤ 256 ^ span width := by
  have hpow : (256 : Nat) ^ span width = 2 ^ (8 * span width) := (pow_mul 2 8 _).symm
  rw [hpow]
  refine Nat.pow_le_pow_right (by norm_num) ?_
  unfold span
  omega

end BitPlace

/-- **Whether a width fills its place exactly**: a part of one byte, or
whole bytes. -/
def IsTile (width : Nat) : Prop := width < 8 ∨ width % 8 = 0

instance : DecidablePred IsTile := fun _ => inferInstanceAs (Decidable (_ ∨ _))

/-- Whole bytes have no bits besides those of their place. -/
theorem IsTile.eq_length {width : Nat} {part : List UInt8} (h : IsTile width) (hwide : 8 ≤ width)
    (hlen : part.length = BitPlace.span width) : width = 8 * part.length := by
  rw [hlen]
  unfold BitPlace.span
  rcases h with h | h <;> omega

/-! ## The bits that are stored -/

/-- Bits that fit are stored as they are. -/
theorem storedBits_natCast {width bits : Nat} (h : bits < 2 ^ width) :
    storedBits width bits = bits := by
  unfold storedBits
  rw [Int.emod_eq_of_lt (by positivity) (by exact_mod_cast h)]
  exact Int.toNat_natCast bits

/-- Reading bits in two's complement loses none of them. -/
theorem storedBits_signExtend {width bits : Nat} (hwidth : 0 < width) (h : bits < 2 ^ width) :
    storedBits width (signExtend width bits) = bits := by
  unfold signExtend
  rw [if_neg hwidth.ne']
  dsimp only
  rw [Nat.mod_eq_of_lt h]
  split_ifs
  · exact storedBits_natCast h
  · have hwrap : storedBits width (bits - 2 ^ width) = storedBits width bits := by
      unfold storedBits
      rw [Int.sub_emod_right]
    rw [hwrap, storedBits_natCast h]

/-! ## Adding bits to a byte -/

section Shifted

variable {bits width shift : Nat}

theorem shifted_lt (hbits : bits < 2 ^ width) (shift : Nat) :
    bits * 2 ^ shift < 2 ^ (width + shift) := by
  rw [pow_add]
  exact Nat.mul_lt_mul_of_pos_right hbits (by positivity)

/-- Bits that fit a byte are added to it as they are. -/
theorem toNat_or_shifted (hfit : width + shift ≤ 8) (hbits : bits < 2 ^ width) (b : UInt8) :
    (b ||| UInt8.ofNat (bits * 2 ^ shift)).toNat = b.toNat ||| bits * 2 ^ shift := by
  have hbound : bits * 2 ^ shift < 2 ^ 8 :=
    (shifted_lt hbits shift).trans_le (Nat.pow_le_pow_right (by norm_num) hfit)
  rw [UInt8.toNat_or, UInt8.toNat_ofNat', Nat.mod_eq_of_lt hbound]

end Shifted

/-! ## Reading bits -/

@[simp] theorem ofLittleEndian_singleton (b : UInt8) : ofLittleEndian [b] = b.toNat := by
  simp [ofLittleEndian]

/-- **Bits that can be read** have a place, and the bytes of the place are
the middle of the buffer. -/
theorem unpackBits_eq_ok {buffer : List UInt8} {bitOffset width bits : Nat}
    (h : unpackBits buffer bitOffset width = .ok bits) :
    ∃ place front part back, BitPlace.locate bitOffset width = .ok place
      ∧ buffer = front ++ (part ++ back) ∧ front.length = place.byte
      ∧ part.length = BitPlace.span width
      ∧ bits = ofLittleEndian part / 2 ^ place.shift % 2 ^ width := by
  unfold unpackBits at h
  simp only [Except.bind_eq_ok, Except.pure_eq_ok, Except.ok.injEq] at h
  obtain ⟨place, hplace, part, hpart, hbits⟩ := h
  have hwidth := (BitPlace.locate_eq_ok.mp hplace).1
  obtain ⟨front, back, hbuffer, hfront, hlen⟩ :=
    append_of_window hpart (BitPlace.span_pos hwidth)
  exact ⟨place, front, part, back, hplace, hbuffer, hfront, hlen, hbits.symm⟩

theorem lt_of_unpackBits {buffer : List UInt8} {bitOffset width bits : Nat}
    (h : unpackBits buffer bitOffset width = .ok bits) : 0 < width ∧ bits < 2 ^ width := by
  obtain ⟨place, front, part, back, hplace, -, -, -, rfl⟩ := unpackBits_eq_ok h
  exact ⟨(BitPlace.locate_eq_ok.mp hplace).1, Nat.mod_lt _ (by positivity)⟩

/-- **An operand's value is stored as the bits it was read from.** -/
theorem storedBits_of_readOperand {buffer : List UInt8} {bitOffset width : Nat} {signed : Bool}
    {value : Int} (h : readOperand buffer bitOffset width signed = .ok value) :
    unpackBits buffer bitOffset width = .ok (storedBits width value) := by
  unfold readOperand at h
  simp only [Except.bind_eq_ok, Except.pure_eq_ok, Except.ok.injEq] at h
  obtain ⟨bits, hbits, rfl⟩ := h
  obtain ⟨hwidth, hlt⟩ := lt_of_unpackBits hbits
  rw [hbits]
  cases signed with
  | true => rw [if_pos rfl, storedBits_signExtend hwidth hlt]
  | false => rw [if_neg Bool.false_ne_true, storedBits_natCast hlt]

/-! ## A buffer that is half filled -/

/-- The highest `count` bits of a byte, the others cleared. -/
def highBits (count : Nat) (b : UInt8) : UInt8 :=
  UInt8.ofNat (b.toNat / 2 ^ (8 - count) * 2 ^ (8 - count))

/-- **The first `count` bits of a byte string**, and zeros behind them. -/
def keepBits : Nat → List UInt8 → List UInt8
  | _, [] => []
  | count, b :: bs => highBits count b :: keepBits (count - 8) bs

theorem toNat_highBits (count : Nat) (b : UInt8) :
    (highBits count b).toNat = b.toNat / 2 ^ (8 - count) * 2 ^ (8 - count) := by
  have hle := Nat.div_mul_le_self b.toNat (2 ^ (8 - count))
  have hb := b.toNat_lt
  rw [highBits, UInt8.toNat_ofNat']
  exact Nat.mod_eq_of_lt (by omega)

theorem highBits_of_le {count : Nat} (h : 8 ≤ count) (b : UInt8) : highBits count b = b := by
  apply UInt8.toNat_inj.mp
  rw [toNat_highBits, Nat.sub_eq_zero_of_le h, pow_zero, Nat.div_one, Nat.mul_one]

theorem highBits_zero (b : UInt8) : highBits 0 b = 0 := by
  apply UInt8.toNat_inj.mp
  rw [toNat_highBits, Nat.div_eq_of_lt b.toNat_lt, Nat.zero_mul]
  rfl

/-- **Adding the next bits of a byte** to those that are there already. -/
theorem highBits_or {used width : Nat} (h : used + width ≤ 8) (b : UInt8) :
    highBits used b
        ||| UInt8.ofNat (b.toNat / 2 ^ (8 - (used + width)) % 2 ^ width
          * 2 ^ (8 - (used + width)))
      = highBits (used + width) b := by
  set shift := 8 - (used + width) with hshift
  have hused : 8 - used = width + shift := by omega
  have hbits : b.toNat / 2 ^ shift % 2 ^ width < 2 ^ width := Nat.mod_lt _ (by positivity)
  -- the byte above the shift, cut at the bits that are being added
  have hcut : b.toNat / 2 ^ shift
      = 2 ^ width * (b.toNat / 2 ^ (width + shift)) + b.toNat / 2 ^ shift % 2 ^ width := by
    rw [Nat.add_comm width shift, pow_add, ← Nat.div_div_eq_div_mul, Nat.div_add_mod]
  have hlow := shifted_lt hbits shift
  apply UInt8.toNat_inj.mp
  rw [toNat_or_shifted (by omega) hbits, toNat_highBits, toNat_highBits, ← hshift, hused,
    Nat.mul_comm _ (2 ^ (width + shift)), ← Nat.two_pow_add_eq_or_of_lt hlow]
  conv_rhs => rw [hcut]
  rw [pow_add]
  ring

@[simp] theorem keepBits_zero (bs : List UInt8) : keepBits 0 bs = List.replicate bs.length 0 := by
  induction bs with
  | nil => rfl
  | cons b bs ih => rw [keepBits, highBits_zero, ih, List.length_cons, List.replicate_succ]

/-- Whole bytes are kept whole. -/
theorem keepBits_append (front bs : List UInt8) (count : Nat) :
    keepBits (8 * front.length + count) (front ++ bs) = front ++ keepBits count bs := by
  induction front with
  | nil => rw [List.length_nil, Nat.mul_zero, Nat.zero_add, List.nil_append, List.nil_append]
  | cons b front ih =>
    have hrest : 8 * (b :: front).length + count - 8 = 8 * front.length + count := by
      rw [List.length_cons]
      omega
    rw [List.cons_append, keepBits, hrest, ih, highBits_of_le, List.cons_append]
    rw [List.length_cons]
    omega

/-- All bits are kept when there are no more than those. -/
theorem keepBits_all (bs : List UInt8) : keepBits (8 * bs.length) bs = bs := by
  have h := keepBits_append bs [] 0
  rwa [List.append_nil, Nat.add_zero, keepBits, List.append_nil] at h

/-- Within the first byte, everything behind it is cleared. -/
theorem keepBits_cons {count : Nat} (h : count ≤ 8) (b : UInt8) (bs : List UInt8) :
    keepBits count (b :: bs) = highBits count b :: List.replicate bs.length 0 := by
  rw [keepBits, Nat.sub_eq_zero_of_le h, keepBits_zero]

/-! ## Packing what was read -/

namespace BitPlace

/-- **The bytes that packing leaves in a place**, where it found the given
ones. -/
def stored (place : BitPlace) (width : Nat) (value : Int) (old : List UInt8) : List UInt8 :=
  if width < 8 then old.map fun b => b ||| UInt8.ofNat (storedBits width value * 2 ^ place.shift)
  else toLittleEndian (span width) (storedBits width value)

variable {width : Nat} {old : List UInt8}

theorem stored_narrow (place : BitPlace) (hnarrow : width < 8) (value : Int) (b : UInt8) :
    place.stored width value [b]
      = [b ||| UInt8.ofNat (storedBits width value * 2 ^ place.shift)] := by
  unfold stored
  rw [if_pos hnarrow, List.map_singleton]

theorem stored_wide (place : BitPlace) (hwide : 8 ≤ width) (value : Int) (old : List UInt8) :
    place.stored width value old = toLittleEndian (span width) (storedBits width value) :=
  if_neg (not_lt.mpr hwide)

theorem length_stored (place : BitPlace) (hold : old.length = span width) (value : Int) :
    (place.stored width value old).length = span width := by
  unfold stored
  split_ifs
  · rw [List.length_map, hold]
  · exact length_toLittleEndian _ _

end BitPlace

/-- **Packing replaces the bytes of the place** and leaves the rest of the
buffer alone. -/
theorem packBits_append {place : BitPlace} {front old back : List UInt8} {bitOffset width : Nat}
    (hplace : BitPlace.locate bitOffset width = .ok place) (hfront : front.length = place.byte)
    (hold : old.length = BitPlace.span width) (value : Int) :
    packBits (front ++ (old ++ back)) bitOffset width value
      = .ok (front ++ (place.stored width value old ++ back)) := by
  have hend : place.byte + BitPlace.span width = (front ++ old).length := by
    rw [List.length_append, hfront, hold]
  unfold packBits
  rw [hplace, Except.ok_bind, window_append front back hfront hold, Except.ok_bind, hend,
    ← List.append_assoc, List.drop_left, List.append_assoc front, ← hfront, List.take_left,
    ← List.append_assoc]
  rfl

/-- **The step**: an operand that is packed behind the bits it followed in
the original adds the bits that it was read from. -/
theorem packBits_keepBits {body : List UInt8} {bitOffset width : Nat} {value : Int}
    (htile : IsTile width)
    (h : unpackBits body bitOffset width = .ok (storedBits width value)) :
    packBits (keepBits bitOffset body) bitOffset width value
      = .ok (keepBits (bitOffset + width) body) := by
  obtain ⟨place, front, part, back, hplace, rfl, hfront, hlen, hbits⟩ := unpackBits_eq_ok h
  obtain ⟨hpos, -, hbyte, hcase⟩ := BitPlace.locate_eq_ok.mp hplace
  have hoffset : bitOffset = 8 * front.length + bitOffset % 8 := by omega
  rcases hcase with ⟨hnarrow, hfit, hshift⟩ | ⟨hwide, haligned, hshift⟩
  · -- the operand lies in one byte, whose bits above it are there already
    obtain ⟨b, rfl⟩ := BitPlace.exists_eq_singleton hpos hnarrow hlen
    have hbefore : keepBits bitOffset (front ++ ([b] ++ back))
        = front ++ ([highBits (bitOffset % 8) b] ++ List.replicate back.length 0) := by
      conv_lhs => rw [hoffset]
      rw [keepBits_append, List.singleton_append, keepBits_cons (by omega)]
      rfl
    have hafter : keepBits (bitOffset + width) (front ++ ([b] ++ back))
        = front ++ ([highBits (bitOffset % 8 + width) b] ++ List.replicate back.length 0) := by
      conv_lhs => rw [hoffset, Nat.add_assoc]
      rw [keepBits_append, List.singleton_append, keepBits_cons hfit]
      rfl
    rw [hbefore, packBits_append hplace hfront (by rw [← hlen]; rfl), place.stored_narrow hnarrow,
      hafter, hbits, ofLittleEndian_singleton, hshift, highBits_or hfit]
  · -- the operand takes whole bytes, which are still empty
    have hbytes := htile.eq_length hwide hlen
    have hbefore : keepBits bitOffset (front ++ (part ++ back))
        = front ++ (List.replicate part.length 0 ++ List.replicate back.length 0) := by
      conv_lhs => rw [hoffset, haligned]
      rw [keepBits_append, keepBits_zero, List.length_append, List.replicate_add]
    have hafter : keepBits (bitOffset + width) (front ++ (part ++ back))
        = front ++ (part ++ List.replicate back.length 0) := by
      have hcount : bitOffset + width = 8 * (front ++ part).length + 0 := by
        rw [List.length_append]
        omega
      rw [hcount, ← List.append_assoc, keepBits_append, keepBits_zero, List.append_assoc]
    have hstored : storedBits width value = ofLittleEndian part := by
      have hlt := ofLittleEndian_lt part
      rw [hbits, hshift, pow_zero, Nat.div_one]
      refine Nat.mod_eq_of_lt (lt_of_lt_of_eq hlt ?_)
      rw [hbytes, pow_mul]
      rfl
    rw [hbefore, packBits_append hplace hfront (by rw [List.length_replicate, hlen]),
      place.stored_wide hwide, hafter, hstored, ← hlen, toLittleEndian_ofLittleEndian]

/-! ## Lists of operands -/

theorem bitLength_cons (operand : Operand) (rest : List Operand) :
    bitLength (operand :: rest) = operand.format.width + bitLength rest := by
  rw [bitLength, List.map_cons, List.sum_cons, bitLength]

/-- The values of operands take up no bits of their own. -/
theorem bitLength_congr {a b : List Operand} (h : a.map Operand.format = b.map Operand.format) :
    bitLength a = bitLength b := by
  have hwidths := congrArg (List.map OperandFormat.width) h
  rw [List.map_map, List.map_map] at hwidths
  exact congrArg List.sum hwidths

theorem payloadLength_congr {a b : List Operand}
    (h : a.map Operand.format = b.map Operand.format) : payloadLength a = payloadLength b :=
  congrArg BitPlace.span (bitLength_congr h)

/-- The formats of operands that were read are the ones that were asked
for. -/
theorem format_of_readOperands {body : List UInt8} {bitOffset : Nat}
    {formats : List OperandFormat} {operands : List Operand}
    (h : readOperands body bitOffset formats = .ok operands) :
    operands.map Operand.format = formats := by
  induction formats generalizing bitOffset operands with
  | nil =>
    rw [readOperands, Except.ok.injEq] at h
    rw [← h, List.map_nil]
  | cons format formats ih =>
    simp only [readOperands, Except.bind_eq_ok, Except.pure_eq_ok, Except.ok.injEq] at h
    obtain ⟨value, -, rest, hrest, rfl⟩ := h
    rw [List.map_cons, ih hrest]

/-- **Packing what was read** fills the buffer up to where reading
stopped. -/
theorem packOperands_keepBits {body : List UInt8} {bitOffset : Nat}
    {formats : List OperandFormat} {operands : List Operand}
    (htile : ∀ format ∈ formats, IsTile format.width)
    (h : readOperands body bitOffset formats = .ok operands) :
    packOperands (keepBits bitOffset body) bitOffset operands
      = .ok (keepBits (bitOffset + bitLength operands) body) := by
  induction formats generalizing bitOffset operands with
  | nil =>
    rw [readOperands, Except.ok.injEq] at h
    rw [← h]
    rfl
  | cons format formats ih =>
    simp only [readOperands, Except.bind_eq_ok, Except.pure_eq_ok, Except.ok.injEq] at h
    obtain ⟨value, hvalue, rest, hrest, rfl⟩ := h
    have hformat := htile format List.mem_cons_self
    have hformats := fun f hf => htile f (List.mem_cons_of_mem format hf)
    rw [packOperands, packBits_keepBits hformat (storedBits_of_readOperand hvalue),
      Except.ok_bind, ih hformats hrest, bitLength_cons, Nat.add_assoc]

end FieldMap
