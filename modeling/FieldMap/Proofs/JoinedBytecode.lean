import FieldMap.Proofs.EncodedInstructions
import FieldMap.Proofs.Placement

/-!
# Bytecode put side by side

An instruction is read from the front of a byte string, and what stands behind it does
not matter (`Instruction.decode_append`). So bytecode behind a script that was decoded
is decoded as if it stood alone, apart from the offsets in its errors
(`Script.decode_append`), and scripts that were decoded one by one are decoded together
as one script (`Script.decode_flatten`).

The offsets move for one kind of error only, that of a read which finds too few bytes;
every other error of the second part is that of the whole (`Script.decode_splits`).
-/

namespace FieldMap

/-- An error that says nothing of an offset is the same from wherever it is seen. -/
theorem CodecError.shift_of_not_isTruncated {e : CodecError} (h : ¬e.IsTruncated) (base : Nat) :
    e.shift base = e := by
  cases e with
  | truncated item offset needed available => exact absurd ⟨_, _, _, _, rfl⟩ h
  | _ => rfl

namespace Instruction

variable {bytes : List UInt8} {instruction : Instruction}

/-- **An instruction is read from its own bytes**, whatever else follows them. -/
theorem decode_take_append (h : decode bytes = .ok instruction) (tail : List UInt8) :
    decode (bytes.take instruction.length ++ tail) = .ok instruction := by
  have hreads := reads_of_decode h
  obtain ⟨written, hencode, -, hdecode⟩ :=
    exists_isWritten hreads.wellShaped hreads.inRange hreads.isLabel
  have hwritten : written = bytes.take instruction.length :=
    Except.ok.inj (hencode.symm.trans hreads.encode)
  exact hwritten ▸ hdecode tail

/-- **What follows an instruction does not matter** to reading it. -/
theorem decode_append (h : decode bytes = .ok instruction) (tail : List UInt8) :
    decode (bytes ++ tail) = .ok instruction := by
  have hrest := decode_take_append h (bytes.drop instruction.length ++ tail)
  rwa [← List.append_assoc, List.take_append_drop] at hrest

end Instruction

namespace Script

/-- **Bytecode behind a script** is decoded as if it stood alone, with the offsets in
its errors moved. -/
theorem decode_append {bytes : List UInt8} {script : Script} (h : decode bytes = .ok script)
    (tail : List UInt8) :
    decode (bytes ++ tail)
      = ((decode tail).mapError (CodecError.shift bytes.length)).map (script ++ ·) := by
  induction h using decode_induction with
  | nil =>
    rw [List.nil_append]
    cases decode tail with
    | error e => exact congrArg Except.error e.shift_zero.symm
    | ok rest => rfl
  | cons bytes first rest _ hread _ ih =>
    have hle := (Instruction.reads_of_decode hread).length_le
    have hne : bytes ≠ [] := List.length_pos_iff.mp
      ((Instruction.reads_of_decode hread).length_pos.trans hle)
    have hlength : first.length + (bytes.drop first.length).length = bytes.length := by
      rw [List.length_drop]
      omega
    rw [decode_of_ne_nil (List.append_ne_nil_of_left_ne_nil hne tail),
      Instruction.decode_append hread, Except.ok_bind, List.drop_append_of_le_length hle, ih,
      ← hlength]
    cases decode tail with
    | error e => exact congrArg Except.error (e.shift_shift ..)
    | ok more => rfl

/-- **Scripts put side by side** are decoded as one script. -/
theorem decode_flatten {parts : List (List UInt8)} {scripts : List Script}
    (h : List.Forall₂ (fun bytes script => decode bytes = .ok script) parts scripts) :
    decode parts.flatten = .ok scripts.flatten := by
  induction h with
  | nil => exact decode_nil
  | cons hfirst _ ih =>
    rw [List.flatten_cons, List.flatten_cons, decode_append hfirst, ih]
    rfl

/-- **Decoding splits between instructions.** Let the first part of some bytecode be a
script. If the second part is a script too, the whole is the two scripts one behind the
other. If it is not, its error is that of the whole: the offset of a read that found too
few bytes counts the bytes of the first part as well, and any other error stays as it
is. -/
theorem decode_splits {front : List UInt8} {script : Script} (h : decode front = .ok script)
    (back : List UInt8) :
    (∀ rest, decode back = .ok rest → decode (front ++ back) = .ok (script ++ rest))
      ∧ (∀ item offset needed available,
        decode back = .error (.truncated item offset needed available) →
          decode (front ++ back)
            = .error (.truncated item (front.length + offset) needed available))
      ∧ ∀ e, ¬e.IsTruncated → decode back = .error e → decode (front ++ back) = .error e := by
  refine ⟨fun rest hback => ?_, fun item offset needed available hback => ?_,
    fun e hcause hback => ?_⟩ <;> rw [decode_append h, hback]
  · rfl
  · rfl
  · exact congrArg Except.error (CodecError.shift_of_not_isTruncated hcause front.length)

/-- Behind a script of two instructions: a script, an instruction that is cut short, and
one that claims to be shorter than its header. -/
theorem decode_splits_threeTails :
    decode [0x5F, 0x10, 1] = .ok [.ordinary 0x5F [], .ordinary 0x10 [.ofKind .shortJump 1]]
      ∧ decode ([0x5F, 0x10, 1] ++ [0x0F, 0xF5, 7])
        = .ok ([.ordinary 0x5F [], .ordinary 0x10 [.ofKind .shortJump 1]]
          ++ [.special 0xF5 [.raw 7]])
      ∧ decode ([0x5F, 0x10, 1] ++ [0, 0x24, 1]) = .error (.truncated .instruction 4 3 2)
      ∧ decode ([0x5F, 0x10, 1] ++ [0, 0x28, 2]) = .error (.wrongSize .kawaiInstruction 3 2) := by
  have hfront : decode [0x5F, 0x10, 1]
      = .ok [.ordinary 0x5F [], .ordinary 0x10 [.ofKind .shortJump 1]] := by decide +kernel
  refine ⟨hfront, (decode_splits hfront _).1 _ (by decide +kernel),
    (decode_splits hfront _).2.1 .instruction 1 3 2 (by decide +kernel),
    (decode_splits hfront _).2.2 _ ?_ (by decide +kernel)⟩
  rintro ⟨item, offset, needed, available, heq⟩
  exact nomatch heq

end Script

end FieldMap
