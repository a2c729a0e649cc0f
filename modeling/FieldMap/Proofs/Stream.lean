import FieldMap.Script.Stream
import FieldMap.Proofs.Encoding

/-!
# Scripts and their bytecode

`Script.decode` keeps what it has read in an accumulator, and so does
`Script.encode`. Both accumulators are transparent, and without them the
two functions follow the list: a script is an instruction and a script
behind it, on both sides (`decode_of_ne_nil`, `encode_cons`).

A script that was decoded is therefore put together from instructions that
were read, each from where the one before it ended. `decode_induction` is
the induction along this, and everything that holds of single instructions
is carried to scripts by it.
-/

namespace FieldMap

@[simp] theorem CodecError.shift_shift (a b : Nat) (e : CodecError) :
    (e.shift b).shift a = e.shift (a + b) := by
  cases e with
  | truncated item offset needed available =>
    show truncated item (a + (b + offset)) needed available = _
    rw [← Nat.add_assoc]
    rfl
  | _ => rfl

@[simp] theorem CodecError.shift_zero (e : CodecError) : e.shift 0 = e := by
  cases e with
  | truncated item offset needed available =>
    show truncated item (0 + offset) needed available = _
    rw [Nat.zero_add]
  | _ => rfl

namespace Script

/-! ## Without accumulators -/

/-- **What is done already stays in front**, and errors are seen from the
start. -/
theorem decodeFrom_eq (done : Script) (offset : Nat) (bytes : List UInt8) :
    decodeFrom done offset bytes
      = ((decode bytes).mapError (CodecError.shift offset)).map (done.reverse ++ ·) := by
  -- one instruction more is done, and there are fewer bytes left
  induction h : bytes.length using Nat.strong_induction_on generalizing done offset bytes with
  | _ n ih =>
    cases bytes with
    | nil => simp [decode, decodeFrom, Except.mapError, Except.map]
    | cons b rest =>
      rw [decode, decodeFrom, decodeFrom]
      cases hread : Instruction.decode (b :: rest) with
      | error e =>
        simp only [Except.mapError, Except.map, CodecError.shift_shift, Nat.add_zero]
      | ok instruction =>
        dsimp only
        have hshort : (rest.drop (max instruction.length 1 - 1)).length < n := by
          rw [← h, List.length_drop, List.length_cons]
          omega
        rw [ih _ hshort _ _ _ rfl, ih _ hshort [instruction] _ _ rfl]
        cases decode (rest.drop (max instruction.length 1 - 1)) with
        | error e =>
          simp only [Except.mapError, Except.map, CodecError.shift_shift, Nat.zero_add]
        | ok tail =>
          simp only [Except.mapError, Except.map, List.reverse_cons, List.append_assoc,
            List.reverse_nil, List.nil_append]

@[simp] theorem decode_nil : decode [] = .ok [] := by
  rw [decode, decodeFrom, List.reverse_nil]

/-- **A script is an instruction and a script behind it.** -/
theorem decode_of_ne_nil {bytes : List UInt8} (hne : bytes ≠ []) :
    decode bytes = (do
      let instruction ← Instruction.decode bytes
      let rest ← (decode (bytes.drop instruction.length)).mapError
        (CodecError.shift instruction.length)
      return instruction :: rest) := by
  cases bytes with
  | nil => exact absurd rfl hne
  | cons b rest =>
    rw [decode, decodeFrom]
    cases hread : Instruction.decode (b :: rest) with
    | error e =>
      dsimp only
      rw [CodecError.shift_zero, Except.error_bind]
    | ok instruction =>
      have hpos := (Instruction.reads_of_decode hread).length_pos
      have hdrop : (b :: rest).drop instruction.length = rest.drop (instruction.length - 1) := by
        conv_lhs => rw [← Nat.sub_add_cancel hpos, List.drop_succ_cons]
      dsimp only
      rw [decodeFrom_eq, Nat.max_eq_left hpos, Nat.zero_add, Except.ok_bind, hdrop]
      cases (decode (rest.drop (instruction.length - 1))).mapError
          (CodecError.shift instruction.length) with
      | error e => rfl
      | ok tail => rfl

/-- **Induction along a decoded script.** -/
theorem decode_induction
    {motive : (bytes : List UInt8) → (script : Script) → decode bytes = .ok script → Prop}
    (nil : motive [] [] decode_nil)
    (cons : ∀ bytes instruction rest h, Instruction.decode bytes = .ok instruction →
      ∀ hrest : decode (bytes.drop instruction.length) = .ok rest,
        motive (bytes.drop instruction.length) rest hrest → motive bytes (instruction :: rest) h)
    {bytes : List UInt8} {script : Script} (h : decode bytes = .ok script) :
    motive bytes script h := by
  induction hlen : bytes.length using Nat.strong_induction_on generalizing bytes script with
  | _ n ih =>
    by_cases hne : bytes = []
    · subst hne
      obtain rfl : [] = script := Except.ok.inj (decode_nil.symm.trans h)
      exact nil
    · have hparts := h
      rw [decode_of_ne_nil hne] at hparts
      simp only [Except.bind_eq_ok, Except.mapError_eq_ok, Except.pure_eq_ok,
        Except.ok.injEq] at hparts
      obtain ⟨instruction, hread, rest, hrest, rfl⟩ := hparts
      have hreads := Instruction.reads_of_decode hread
      have hshort : (bytes.drop instruction.length).length < n := by
        have hpos := hreads.length_pos
        have hle := hreads.length_le
        rw [List.length_drop]
        omega
      exact cons bytes instruction rest h hread hrest (ih _ hshort hrest rfl)

theorem encodeFrom_eq (done : Array UInt8) (script : Script) :
    encodeFrom done script = (encode script).map (done.toList ++ ·) := by
  induction script generalizing done with
  | nil => simp [encode, encodeFrom, Except.map]
  | cons instruction rest ih =>
    rw [encode, encodeFrom, encodeFrom]
    cases instruction.isLabel with
    | true =>
      simp only [if_true]
      rw [ih done, encode]
    | false =>
      simp only [Bool.false_eq_true, if_false]
      cases instruction.encode with
      | error e => rfl
      | ok bytes =>
        dsimp only
        rw [ih (done ++ bytes), ih (#[] ++ bytes)]
        cases encode rest with
        | error e => rfl
        | ok tail => simp [Except.map]

/-- **The bytecode of a script** is that of its first instruction and that
of the rest. -/
theorem encode_cons {instruction : Instruction} (hlabel : instruction.isLabel = false)
    (rest : Script) :
    encode (instruction :: rest) = (do
      let bytes ← instruction.encode
      let tail ← encode rest
      return bytes ++ tail) := by
  rw [encode, encodeFrom, if_neg (by rw [hlabel]; exact Bool.false_ne_true)]
  cases instruction.encode with
  | error e => rfl
  | ok bytes =>
    dsimp only
    rw [encodeFrom_eq, Except.ok_bind]
    cases encode rest with
    | error e => rfl
    | ok tail => simp [Except.map]

/-! ## Decoding loses nothing -/

/-- **A property of all instructions that can be read** holds of every
instruction of a decoded script. -/
theorem reads_of_mem_decode {bytes : List UInt8} {script : Script}
    (h : decode bytes = .ok script) :
    ∀ instruction ∈ script, ∃ rest, Instruction.Reads rest instruction := by
  induction h using decode_induction with
  | nil => exact fun _ hmem => absurd hmem List.not_mem_nil
  | cons bytes first rest _ hread _ ih =>
    intro instruction hmem
    rcases List.mem_cons.mp hmem with rfl | hmem
    · exact ⟨bytes, Instruction.reads_of_decode hread⟩
    · exact ih instruction hmem

theorem byteLength_cons (instruction : Instruction) (rest : Script) :
    byteLength (instruction :: rest) = instruction.length + byteLength rest := by
  rw [byteLength, List.map_cons, List.sum_cons, byteLength]

/-- A decoded script takes up the bytes that it was read from. -/
theorem byteLength_of_decode {bytes : List UInt8} {script : Script}
    (h : decode bytes = .ok script) : byteLength script = bytes.length := by
  induction h using decode_induction with
  | nil => rfl
  | cons bytes instruction rest _ hread _ ih =>
    have hle := (Instruction.reads_of_decode hread).length_le
    rw [byteLength_cons, ih, List.length_drop]
    omega

/-- **A decoded script encodes to the bytes that it was read from.** -/
theorem encode_of_decode {bytes : List UInt8} {script : Script}
    (h : decode bytes = .ok script) : encode script = .ok bytes := by
  induction h using decode_induction with
  | nil => rfl
  | cons bytes instruction rest _ hread _ ih =>
    have hreads := Instruction.reads_of_decode hread
    rw [encode_cons hreads.isLabel, hreads.encode, Except.ok_bind, ih, Except.ok_bind]
    exact congrArg Except.ok (List.take_append_drop _ _)

/-- **Decoding loses nothing.** A byte string that is accepted is what its
script encodes to; the instructions take up all of it, at least a byte each,
and none of them is a label. A single instruction encodes to the bytes in
front from which it was read. -/
theorem decode_lossless :
    (∀ bytes script, decode bytes = .ok script →
      script.encode = .ok bytes
        ∧ (∀ instruction ∈ script, 1 ≤ instruction.length)
        ∧ (script.map Instruction.length).sum = bytes.length
        ∧ ∀ number, .label number ∉ script)
      ∧ ∀ bytes instruction, Instruction.decode bytes = .ok instruction →
        instruction.length ≤ bytes.length
          ∧ instruction.encode = .ok (bytes.take instruction.length) := by
  refine ⟨fun bytes script h => ⟨encode_of_decode h, fun instruction hmem => ?_,
    byteLength_of_decode h, fun number hmem => ?_⟩, fun bytes instruction h => ?_⟩
  · obtain ⟨rest, hreads⟩ := reads_of_mem_decode h instruction hmem
    exact hreads.length_pos
  · obtain ⟨rest, hreads⟩ := reads_of_mem_decode h _ hmem
    exact absurd hreads.isLabel (by simp [Instruction.isLabel])
  · have hreads := Instruction.reads_of_decode h
    exact ⟨hreads.length_le, hreads.encode⟩

/-- A script with packed banks, a negative coordinate, a conditional jump and
a payload that states its own length. -/
theorem decode_lossless_mixed :
    decode [0xA8, 0xF1, 0xFE, 0xFF, 3, 0, 0x14, 0x01, 2, 3, 4, 5, 0x28, 4, 6, 0xAA]
        = .ok [.ordinary 0xA8 [⟨OperandKind.bank.format, 0xF⟩, ⟨OperandKind.bank.format, 1⟩,
            ⟨OperandKind.coordX.format, -2⟩, ⟨OperandKind.coordY.format, 3⟩],
          .ordinary 0x14 [⟨OperandKind.bank.format, 0⟩, ⟨OperandKind.bank.format, 1⟩,
            ⟨OperandKind.byte.format, 2⟩, ⟨OperandKind.byte.format, 3⟩,
            ⟨OperandKind.operator.format, 4⟩, ⟨OperandKind.shortJump.format, 5⟩],
          .kawai 6 [.raw 0xAA]]
      ∧ encode [.ordinary 0xA8 [⟨OperandKind.bank.format, 0xF⟩, ⟨OperandKind.bank.format, 1⟩,
            ⟨OperandKind.coordX.format, -2⟩, ⟨OperandKind.coordY.format, 3⟩],
          .ordinary 0x14 [⟨OperandKind.bank.format, 0⟩, ⟨OperandKind.bank.format, 1⟩,
            ⟨OperandKind.byte.format, 2⟩, ⟨OperandKind.byte.format, 3⟩,
            ⟨OperandKind.operator.format, 4⟩, ⟨OperandKind.shortJump.format, 5⟩],
          .kawai 6 [.raw 0xAA]]
        = .ok [0xA8, 0xF1, 0xFE, 0xFF, 3, 0, 0x14, 0x01, 2, 3, 4, 5, 0x28, 4, 6, 0xAA]
      ∧ Instruction.decode [0x28, 4, 6, 0xAA, 0xFF] = .ok (.kawai 6 [.raw 0xAA])
      ∧ Instruction.encode (.kawai 6 [.raw 0xAA]) = .ok [0x28, 4, 6, 0xAA] :=
  ⟨by decide +kernel, (decode_lossless.1 _ _ (by decide +kernel)).1, by decide +kernel,
    (decode_lossless.2 [0x28, 4, 6, 0xAA, 0xFF] _ (by decide +kernel)).2⟩

end Script

end FieldMap
