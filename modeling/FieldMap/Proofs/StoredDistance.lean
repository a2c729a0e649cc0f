import FieldMap.Proofs.JumpTargets
import FieldMap.Proofs.RoundTrip

/-!
# The distance of a jump in bytecode

The operands of an instruction are read bit by bit, but the distance of a jump is as
wide as one byte or two, so it has a byte of its own to start at. That byte is the one
that the jump counts from when it counts forwards (`Instruction.jumpOffset?`), and
what stands there is the distance: one byte of a short jump, and two of a long one,
the low byte first.

An instruction of a decoded script was read from where it starts in the bytecode
(`decode_drop_startAt`), so that the distances of a script can be read off its bytecode
directly (`isDistanceAt_of_decode`).
-/

namespace FieldMap

open InstructionSet

/-- **An operand of whole bytes without a sign** is the number in these bytes. -/
theorem window_of_readOperand {buffer : List UInt8} {bitOffset width : Nat} {value : Int}
    (hwidth : 8 ≤ width) (htile : IsTile width)
    (h : readOperand buffer bitOffset width false = .ok value) :
    ∃ part, window .operand (bitOffset / 8) (width / 8) buffer = .ok part
      ∧ value = ofLittleEndian part := by
  unfold readOperand at h
  simp only [Except.bind_eq_ok, Except.pure_eq_ok, Except.ok.injEq] at h
  obtain ⟨bits, hbits, rfl⟩ := h
  obtain ⟨place, front, part, back, hplace, rfl, hfront, hlen, rfl⟩ := unpackBits_eq_ok hbits
  obtain ⟨-, -, hbyte, hcase⟩ := BitPlace.locate_eq_ok.mp hplace
  have hshift : place.shift = 0 := hcase.elim (fun h => absurd h.1 (by omega)) (fun h => h.2.2)
  have hbytes := htile.eq_length hwidth hlen
  have hlt : ofLittleEndian part < 2 ^ width := by
    have hbound := ofLittleEndian_lt part
    rwa [hbytes, pow_mul]
  refine ⟨part, window_append front back (hfront.trans hbyte) (by omega), ?_⟩
  rw [hshift, pow_zero, Nat.div_one, Nat.mod_eq_of_lt hlt]
  rfl

namespace Instruction

/-- **Operands with kinds are read one by one** from the bytes of their row. -/
theorem readOperands_of_decode {bytes : List UInt8} {id : UInt8} {operands : List Operand}
    (hkinds : ¬(info id).kinds.isEmpty = true) (h : decode bytes = .ok (ordinary id operands)) :
    ∃ body, body <+: bytes ∧ readOperands body 8 (info id).formats = .ok operands := by
  unfold decode at h
  obtain ⟨first, -, h⟩ := Except.bind_eq_ok.mp h
  split_ifs at h
  · unfold decodeSpecial at h
    simp only [Except.bind_eq_ok, Except.pure_eq_ok, Except.ok.injEq, reduceCtorEq, and_false,
      exists_false] at h
  · unfold decodeKawai at h
    obtain ⟨length, -, h⟩ := Except.bind_eq_ok.mp h
    split_ifs at h
    simp only [Except.bind_eq_ok, Except.pure_eq_ok, Except.ok.injEq, reduceCtorEq, and_false,
      exists_false] at h
  · unfold decodeOrdinary at h
    split_ifs at h with hfirst
    · simp only [Except.bind_eq_ok, Except.pure_eq_ok, Except.ok.injEq, ordinary.injEq] at h
      obtain ⟨extra, -, payload, -, rfl, -⟩ := h
      exact absurd hfirst hkinds
    · simp only [Except.bind_eq_ok, Except.pure_eq_ok, Except.ok.injEq, ordinary.injEq] at h
      obtain ⟨body, hbody, read, hread, rfl, rfl⟩ := h
      refine ⟨body, ?_, hread⟩
      rw [← (window_eq_ok.mp hbody).1, List.drop_zero]
      exact List.take_prefix _ _

/-- **The distance of a jump stands at the byte that it counts from** when it counts
forwards. -/
theorem window_of_jump {bytes : List UInt8} {instruction : Instruction} {index : Nat}
    {distance : Int} (h : decode bytes = .ok instruction)
    (hjump : instruction.jumpValue? = some (index, distance)) :
    ∃ operand offset part, instruction.operands[index]? = some operand
      ∧ (operand.format = OperandKind.shortJump.format
        ∨ operand.format = OperandKind.longJump.format)
      ∧ instruction.jumpOffset? = some offset
      ∧ window .operand offset (operand.format.width / 8) bytes = .ok part
      ∧ distance = ofLittleEndian part := by
  have hshape := (reads_of_decode h).wellShaped
  obtain ⟨operand, kind, hget, rfl, hformat, hkind⟩ := jump_format hshape hjump
  have hindex := (jumpValue?_eq_some.mp hjump).1
  obtain ⟨id, operands, rfl, -, -, hkinds, -⟩ :=
    hshape.exists_ordinary_of_isJump (List.mem_of_getElem? hget) (hformat ▸ hkind)
  obtain ⟨body, hprefix, hread⟩ := readOperands_of_decode hkinds h
  obtain ⟨hformats, hvalues⟩ := readOperands_eq_ok.mp hread
  have hvalue := hvalues index operand hget
  rw [← hformats, operandOffset_map_format, hformat] at hvalue
  have hjumps := isJump_iff.mp hkind
  have hwidth : 8 ≤ kind.width := by rcases hjumps with rfl | rfl <;> decide
  have hunsigned : kind.format.signed = false := by rcases hjumps with rfl | rfl <;> rfl
  rw [hunsigned] at hvalue
  obtain ⟨part, hpart, hdistance⟩ := window_of_readOperand hwidth (isTile_width kind) hvalue
  obtain ⟨front, back, rfl, hfront, hlen⟩ := append_of_window hpart (by omega)
  obtain ⟨tail, rfl⟩ := hprefix
  refine ⟨operand, _, part, hget, hformat ▸ hjumps.imp (congrArg _) (congrArg _),
    Option.map_eq_some_iff.mpr ⟨index, hindex, rfl⟩, ?_, hdistance⟩
  rw [List.append_assoc, List.append_assoc]
  refine window_append front _ (hfront.trans ?_) (hformat ▸ hlen)
  show (8 + bitLength (operands.take index)) / 8 = 1 + bitLength (operands.take index) / 8
  omega

end Instruction

namespace Script

/-- **An instruction of a decoded script was read from where it starts.** -/
theorem decode_drop_startAt {bytes : List UInt8} {script : Script} (h : decode bytes = .ok script)
    {i : Nat} {instruction : Instruction} (hget : script[i]? = some instruction) :
    Instruction.decode (bytes.drop (script.startAt i)) = .ok instruction := by
  induction h using decode_induction generalizing i with
  | nil => exact nomatch hget
  | cons bytes first rest _ hread _ ih =>
    cases i with
    | zero => exact Option.some.inj hget ▸ hread
    | succ i =>
      rw [startAt_cons, ← List.drop_drop]
      exact ih hget

/-- **The distance that stands at a byte**: one byte for a short jump, and two for a
long one, the low byte first. -/
def IsDistanceAt (bytes : List UInt8) (place : Nat) (kind : OperandKind) (distance : Int) : Prop :=
  (kind = .shortJump ∧ ∃ b, bytes[place]? = some b ∧ distance = b.toNat)
    ∨ kind = .longJump ∧ ∃ low high, bytes[place]? = some low ∧ bytes[place + 1]? = some high
      ∧ distance = low.toNat + 256 * high.toNat

/-- **The distance of a jump stands in the bytecode** of its script. -/
theorem isDistanceAt_of_decode {bytes : List UInt8} {script : Script}
    (h : decode bytes = .ok script) {i index : Nat} {instruction : Instruction} {distance : Int}
    (hget : script[i]? = some instruction)
    (hjump : instruction.jumpValue? = some (index, distance)) :
    ∃ operand offset, instruction.operands[index]? = some operand
      ∧ instruction.jumpOffset? = some offset
      ∧ IsDistanceAt bytes (script.startAt i + offset) operand.format.kind distance := by
  obtain ⟨operand, offset, part, hoperand, hformat, hoffset, hpart, rfl⟩ :=
    Instruction.window_of_jump (decode_drop_startAt h hget) hjump
  obtain ⟨hwindow, hlen⟩ := window_eq_ok.mp hpart
  have hbyte : ∀ k < part.length, bytes[script.startAt i + offset + k]? = part[k]? := fun k hk => by
    rw [← hwindow, List.getElem?_take_of_lt (hlen ▸ hk), List.drop_drop, List.getElem?_drop]
  refine ⟨operand, offset, hoperand, hoffset, ?_⟩
  rcases hformat with hformat | hformat
  · rw [hformat] at hlen ⊢
    obtain ⟨b, rfl⟩ := List.length_eq_one_iff.mp hlen
    exact .inl ⟨rfl, b, hbyte 0 Nat.one_pos, by rw [ofLittleEndian_singleton]⟩
  · rw [hformat] at hlen ⊢
    obtain ⟨low, high, rfl⟩ := List.length_eq_two.mp hlen
    exact .inr ⟨rfl, low, high, hbyte 0 Nat.two_pos, hbyte 1 Nat.one_lt_two, by
      simp [ofLittleEndian]⟩

end Script

end FieldMap
