import FieldMap.Proofs.Ladders
import FieldMap.Proofs.PrefixFreeCode

/-!
# A script and its symbolic form

The distances of a decoded script fit their operands, since that is where
they were read from. So labels that were inserted into a decoded script can
be resolved, as long as words of 32 bits tell them apart, and the bytecode
that comes out is the one that went in: `Script.roundTrip` fails where
decoding fails or where a jump leads to no boundary.

It fails for one more reason, and for no other. A script whose jumps lead to
more than `2 ^ 32` boundaries has labels that share a number, and these
cannot be resolved (`insertLabels_undone`). A jump takes up two bytes, so
that such a script is longer than `2 ^ 33` bytes; a ladder with one rung more
than there are words is one (`ladder_not_undone`).
-/

namespace FieldMap

open InstructionSet

/-! ## The distances of decoded jumps -/

namespace Instruction

/-- **The operand of a jump** is of one of the two kinds of distances, and
in the format of that kind. -/
theorem jump_format {instruction : Instruction} {index : Nat} {value : Int}
    (hshape : instruction.WellShaped) (h : instruction.jumpValue? = some (index, value)) :
    ∃ operand kind, instruction.operands[index]? = some operand ∧ operand.value = value
      ∧ operand.format = OperandKind.format kind ∧ kind.isJump = true := by
  obtain ⟨hindex, operand, hoperand, hvalue⟩ := jumpValue?_eq_some.mp h
  obtain ⟨kind, hkind⟩ := hshape.exists_kind operand (List.mem_of_getElem? hoperand)
  refine ⟨operand, kind, hoperand, hvalue, hkind, ?_⟩
  cases instruction with
  | ordinary id operands =>
    obtain ⟨hlt, hjump, -⟩ := List.findIdx?_eq_some_iff_getElem.mp hindex
    have hget : operands[index] = operand := by
      have hsome : operands[index]? = some operand := hoperand
      rwa [List.getElem?_eq_getElem hlt, Option.some.injEq] at hsome
    rw [hget, hkind] at hjump
    exact hjump
  | _ => exact nomatch hindex

/-- Distances have no sign. -/
theorem min_format_of_isJump {kind : OperandKind} (h : kind.isJump = true) :
    (OperandKind.format kind).min = 0 := by
  rcases isJump_iff.mp h with rfl | rfl <;> rfl

/-- Another value leaves the shape of a jump as it is. -/
theorem WellShaped.setValue {instruction : Instruction} (h : instruction.WellShaped)
    {index : Nat} {number : Int} (hjump : instruction.jumpValue? = some (index, number))
    (value : Int) : (instruction.setValue index value).WellShaped := by
  obtain ⟨operand, kind, hoperand, -, hformat, hkind⟩ := jump_format h hjump
  obtain ⟨id, operands, rfl, hspecial, hkawai, hkinds, hformats⟩ :=
    h.exists_ordinary_of_isJump (List.mem_of_getElem? hoperand) (hformat ▸ hkind)
  refine ⟨hspecial, hkawai, ?_⟩
  rw [if_neg hkinds]
  exact (map_format_modify operands index value).trans hformats

/-- A jump takes up two bytes at least: its id, and its distance. -/
theorem two_le_length_of_jump {instruction : Instruction} (h : instruction.WellShaped)
    {index : Nat} {number : Int} (hjump : instruction.jumpValue? = some (index, number)) :
    2 ≤ instruction.length := by
  obtain ⟨operand, kind, hoperand, -, hformat, hkind⟩ := jump_format h hjump
  have hwidth : 8 ≤ kind.width := by
    rcases isJump_iff.mp hkind with rfl | rfl <;> decide
  cases instruction with
  | ordinary id operands =>
    have hmem : operand.format.width ∈ operands.map fun operand => operand.format.width :=
      List.mem_map_of_mem (List.mem_of_getElem? hoperand)
    have hbits : kind.width ≤ bitLength operands := by
      have hle := List.le_sum_of_mem hmem
      rwa [hformat] at hle
    have hspan : 1 ≤ payloadLength operands := by
      unfold payloadLength BitPlace.span
      omega
    exact Nat.add_le_add_left hspan 1
  | _ => exact nomatch hjump

end Instruction

namespace Script

/-- **A distance in range fits.** -/
theorem jumpFits_of_inRange {instruction : Instruction} (hshape : instruction.WellShaped)
    (hrange : instruction.InRange) : JumpFits instruction := by
  intro index value h
  obtain ⟨operand, kind, hoperand, hvalue, hformat, hjump⟩ := Instruction.jump_format hshape h
  obtain ⟨hmin, hmax⟩ :=
    OperandFormat.holds_iff.mp (hrange operand (List.mem_of_getElem? hoperand))
  rw [hvalue] at hmin hmax
  have hzero : operand.format.min = 0 := hformat ▸ Instruction.min_format_of_isJump hjump
  rw [hoperand]
  exact ⟨hzero ▸ hmin, hmax⟩

theorem isLabel_of_decode {bytes : List UInt8} {script : Script} (h : decode bytes = .ok script) :
    ∀ instruction ∈ script, instruction.isLabel = false := fun instruction hmem =>
  let ⟨_, hreads⟩ := reads_of_mem_decode h instruction hmem
  hreads.isLabel

theorem jumpFits_of_decode {bytes : List UInt8} {script : Script} (h : decode bytes = .ok script) :
    ∀ instruction ∈ script, JumpFits instruction := fun instruction hmem =>
  let ⟨_, hreads⟩ := reads_of_mem_decode h instruction hmem
  jumpFits_of_inRange hreads.wellShaped hreads.inRange

/-! ## Where the two passes can fail -/

/-- The errors of a reader of bytecode: bytes are missing, an operand has no
place, or a self-sized instruction claims too few bytes. -/
def IsReadError : CodecError → Prop
  | .truncated _ _ _ _ => True
  | .misaligned _ _ => True
  | .wrongSize item _ _ => item = .kawaiInstruction
  | _ => False

theorem isReadError_of_decodeInstruction {bytes : List UInt8} {e : CodecError}
    (h : Instruction.decode bytes = .error e) : IsReadError e := by
  obtain ⟨⟨_, _, _, _, rfl⟩, -⟩ | ⟨_, _, _, _, rfl⟩ := Instruction.decode_eq_error h
  · trivial
  · rfl

theorem isReadError_shift {offset : Nat} {e : CodecError} (h : IsReadError e) :
    IsReadError (e.shift offset) := by
  cases e <;> exact h

theorem isReadError_of_decode {bytes : List UInt8} {e : CodecError}
    (h : decode bytes = .error e) : IsReadError e := by
  induction hlen : bytes.length using Nat.strong_induction_on generalizing bytes e with
  | _ n ih =>
    have hne : bytes ≠ [] := by
      rintro rfl
      exact nomatch decode_nil.symm.trans h
    rw [decode_of_ne_nil hne] at h
    obtain hfirst | ⟨instruction, hread, h⟩ := Except.bind_eq_error.mp h
    · exact isReadError_of_decodeInstruction hfirst
    have hreads := Instruction.reads_of_decode hread
    have hshort : (bytes.drop instruction.length).length < n := by
      have hpos := hreads.length_pos
      have hle := hreads.length_le
      rw [List.length_drop]
      omega
    cases hrest : decode (bytes.drop instruction.length) with
    | ok rest =>
      rw [hrest] at h
      exact nomatch h
    | error fault =>
      rw [hrest] at h
      exact Except.error.inj h ▸ isReadError_shift (ih _ hshort hrest rfl)

/-- Inserting labels fails at a jump only. -/
theorem jumpOffBoundary_of_insertLabels {script : Script} {e : CodecError}
    (h : script.insertLabels = .error e) : ∃ index target, e = .jumpOffBoundary index target := by
  unfold insertLabels at h
  simp only [Except.bind_eq_error, Except.pure_eq_ok, reduceCtorEq, and_false, exists_false,
    or_false] at h
  obtain ⟨place, -, hplace⟩ := List.exists_of_mapM_eq_error h
  unfold jumpSite at hplace
  split at hplace
  · exact nomatch hplace
  · split_ifs at hplace
    exact ⟨_, _, (Except.error.inj hplace).symm⟩

/-! ## How many labels there are -/

theorem two_mul_length_targets_le {script : Script}
    (hsize : ∀ instruction ∈ script, instruction.jumpValue?.isSome → 2 ≤ instruction.length) :
    2 * script.targets.length ≤ script.byteLength := by
  have h : ∀ start index, 2 * ((placedFrom start index script).filterMap fun place =>
      (siteAt place).target?).length ≤ script.byteLength := by
    induction script with
    | nil => exact fun _ _ => le_rfl
    | cons instruction rest ih =>
      intro start index
      have hrest := ih (fun i hi => hsize i (List.mem_cons_of_mem instruction hi))
        (start + instruction.length) (index + 1)
      rw [placedFrom, List.filterMap_cons, byteLength_cons]
      cases htarget : (siteAt ⟨instruction, start, index⟩).target? with
      | none => exact hrest.trans (Nat.le_add_left ..)
      | some target =>
        have hjump : instruction.jumpValue?.isSome := by
          rw [← Instruction.target?_isSome instruction start, ← Option.isSome_map (f := Int.toNat)]
          exact Option.isSome_iff_exists.mpr ⟨target, htarget⟩
        have hlength := hsize instruction List.mem_cons_self hjump
        dsimp only
        rw [List.length_cons]
        omega
  rw [targets, List.filterMap_map, placed_eq]
  exact h 0 0

/-- **A label takes two bytes**, those of a jump that leads to it. -/
theorem two_mul_length_marked_le {bytes : List UInt8} {script : Script}
    (hscript : decode bytes = .ok script) : 2 * script.marked.length ≤ bytes.length := by
  have hsize : ∀ instruction ∈ script,
      instruction.jumpValue?.isSome → 2 ≤ instruction.length := fun instruction hi hjump => by
    obtain ⟨rest, hreads⟩ := reads_of_mem_decode hscript instruction hi
    obtain ⟨⟨index, value⟩, hvalue⟩ := Option.isSome_iff_exists.mp hjump
    exact Instruction.two_le_length_of_jump hreads.wellShaped hvalue
  have htargets := two_mul_length_targets_le hsize
  rw [byteLength_of_decode hscript] at htargets
  exact (Nat.mul_le_mul_left 2 (length_marked_le script)).trans htargets

/-! ## There and back -/

/-- Labels inserted into a decoded script can be resolved, as long as their
numbers tell them apart. -/
theorem resolveLabels_of_decode {bytes : List UInt8} {script symbolic : Script}
    (hscript : decode bytes = .ok script) (h : script.insertLabels = .ok symbolic)
    (hcount : script.marked.length ≤ 2 ^ 32) : symbolic.resolveLabels = .ok script :=
  resolveLabels_of_insertLabels (isLabel_of_decode hscript) (jumpFits_of_decode hscript) h hcount

/-- **What resolving gives**, if it gives anything, is the script. -/
theorem resolveLabels_eq_ok_of_decode {bytes : List UInt8} {script symbolic resolved : Script}
    (hscript : decode bytes = .ok script) (h : script.insertLabels = .ok symbolic) :
    symbolic.resolveLabels = .ok resolved
      ↔ script.marked.length ≤ 2 ^ 32 ∧ resolved = script := by
  rcases Nat.lt_or_ge (2 ^ 32) script.marked.length with hcount | hcount
  · obtain ⟨index, number, herror⟩ := redefined_of_insertLabels (isLabel_of_decode hscript) h hcount
    rw [herror]
    exact iff_of_false (fun heq => nomatch heq) (fun heq => Nat.not_le_of_lt hcount heq.1)
  · rw [resolveLabels_of_decode hscript h hcount, Except.ok.injEq, eq_comm]
    exact (and_iff_right hcount).symm

/-- Behind resolving, no step of the round trip can fail. -/
theorem roundTrip_eq (bytes : List UInt8) :
    roundTrip bytes = do
      let script ← decode bytes
      let symbolic ← script.insertLabels
      let _ ← symbolic.resolveLabels
      return () := by
  unfold roundTrip
  cases hscript : decode bytes with
  | error e => rfl
  | ok script =>
    cases hsymbolic : script.insertLabels with
    | error e =>
      rw [Except.ok_bind, Except.ok_bind, hsymbolic]
      rfl
    | ok symbolic =>
      rw [Except.ok_bind, Except.ok_bind, hsymbolic, Except.ok_bind, Except.ok_bind]
      cases hresolved : symbolic.resolveLabels with
      | error e => rfl
      | ok resolved =>
        obtain ⟨-, rfl⟩ := (resolveLabels_eq_ok_of_decode hscript hsymbolic).mp hresolved
        rw [Except.ok_bind, Except.ok_bind, encode_of_decode hscript, Except.ok_bind]
        exact if_pos rfl

theorem roundTrip_eq_ok_iff {bytes : List UInt8} :
    roundTrip bytes = .ok ()
      ↔ ∃ script symbolic, decode bytes = .ok script ∧ script.insertLabels = .ok symbolic
        ∧ script.marked.length ≤ 2 ^ 32 := by
  rw [roundTrip_eq]
  simp only [Except.bind_eq_ok, Except.pure_eq_ok, and_true]
  constructor
  · rintro ⟨script, hscript, symbolic, hsymbolic, resolved, hresolved⟩
    exact ⟨script, symbolic, hscript, hsymbolic,
      ((resolveLabels_eq_ok_of_decode hscript hsymbolic).mp hresolved).1⟩
  · rintro ⟨script, symbolic, hscript, hsymbolic, hcount⟩
    exact ⟨script, hscript, symbolic, hsymbolic, script,
      resolveLabels_of_decode hscript hsymbolic hcount⟩

/-- The round trip fails with the error of the first step that does. -/
theorem roundTrip_eq_error {bytes : List UInt8} {e : CodecError} :
    roundTrip bytes = .error e
      ↔ decode bytes = .error e
        ∨ (∃ script, decode bytes = .ok script ∧ script.insertLabels = .error e)
        ∨ ∃ script symbolic, decode bytes = .ok script ∧ script.insertLabels = .ok symbolic
          ∧ symbolic.resolveLabels = .error e := by
  rw [roundTrip_eq]
  simp only [Except.bind_eq_error, Except.pure_eq_ok, reduceCtorEq, and_false, exists_false,
    or_false, and_or_left, exists_or, exists_and_left]

/-- **Only labels that share a number** cannot be resolved. -/
theorem resolveLabels_eq_error_of_decode {bytes : List UInt8} {script symbolic : Script}
    {e : CodecError} (hscript : decode bytes = .ok script)
    (h : script.insertLabels = .ok symbolic) (herror : symbolic.resolveLabels = .error e) :
    2 ^ 32 < script.marked.length ∧ ∃ index number, e = .labelRedefined index number := by
  have hcount : 2 ^ 32 < script.marked.length := Nat.lt_of_not_le fun hle =>
    nomatch herror.symm.trans (resolveLabels_of_decode hscript h hle)
  obtain ⟨index, number, hredefined⟩ :=
    redefined_of_insertLabels (isLabel_of_decode hscript) h hcount
  exact ⟨hcount, index, number, Except.error.inj (herror.symm.trans hredefined)⟩

/-- Why a round trip fails. -/
theorem cause_of_roundTrip {bytes : List UInt8} {e : CodecError}
    (h : roundTrip bytes = .error e) :
    IsReadError e ∨ (∃ index target, e = .jumpOffBoundary index target)
      ∨ (∃ script, decode bytes = .ok script ∧ 2 ^ 32 < script.marked.length)
        ∧ ∃ index number, e = .labelRedefined index number := by
  obtain hread | ⟨script, -, hjump⟩ | ⟨script, symbolic, hscript, hsymbolic, herror⟩ :=
    roundTrip_eq_error.mp h
  · exact .inl (isReadError_of_decode hread)
  · exact .inr (.inl (jumpOffBoundary_of_insertLabels hjump))
  · obtain ⟨hcount, hredefined⟩ := resolveLabels_eq_error_of_decode hscript hsymbolic herror
    exact .inr (.inr ⟨⟨script, hscript, hcount⟩, hredefined⟩)

/-- **Inserted labels can be undone** as long as words of 32 bits tell them
apart. Resolving the labels of a decoded script gives back the script if its
jumps lead to at most `2 ^ 32` boundaries, which is so for every byte string
of up to `2 ^ 33` bytes; with more of them some label is found twice. So the
round trip of a byte string succeeds when decoding it and inserting labels do
and the labels are that few, and fails with the error of the first step that
does; it never finds a distance that does not fit, or bytecode other than the
one it began with. -/
theorem insertLabels_undone (bytes : List UInt8) :
    (∀ script symbolic, decode bytes = .ok script → script.insertLabels = .ok symbolic →
        (script.marked.length ≤ 2 ^ 32 → symbolic.resolveLabels = .ok script)
          ∧ (2 ^ 32 < script.marked.length →
            ∃ index number, symbolic.resolveLabels = .error (.labelRedefined index number)))
      ∧ (bytes.length ≤ 2 ^ 33 →
          ∀ script, decode bytes = .ok script → script.marked.length ≤ 2 ^ 32)
      ∧ (roundTrip bytes = .ok ()
          ↔ ∃ script symbolic, decode bytes = .ok script ∧ script.insertLabels = .ok symbolic
            ∧ script.marked.length ≤ 2 ^ 32)
      ∧ (∀ e, roundTrip bytes = .error e
          ↔ decode bytes = .error e
            ∨ (∃ script, decode bytes = .ok script ∧ script.insertLabels = .error e)
            ∨ ∃ script symbolic, decode bytes = .ok script ∧ script.insertLabels = .ok symbolic
              ∧ symbolic.resolveLabels = .error e)
      ∧ (∀ index number, roundTrip bytes = .error (.labelRedefined index number) →
          ∃ script, decode bytes = .ok script ∧ 2 ^ 32 < script.marked.length)
      ∧ (∀ index distance, roundTrip bytes ≠ .error (.jumpOutOfRange index distance))
      ∧ ∀ expected actual, roundTrip bytes ≠ .error (.wrongSize .encodedScript expected actual) := by
  refine ⟨fun script symbolic hscript hsymbolic => ⟨resolveLabels_of_decode hscript hsymbolic,
      redefined_of_insertLabels (isLabel_of_decode hscript) hsymbolic⟩,
    fun hlength script hscript => ?few, roundTrip_eq_ok_iff, fun e => roundTrip_eq_error,
    fun index number h => ?redefined, fun index distance h => ?distance,
    fun expected actual h => ?size⟩
  case few =>
    have hbytes := two_mul_length_marked_le hscript
    omega
  case redefined =>
    obtain hread | ⟨_, _, heq⟩ | ⟨hcount, -⟩ := cause_of_roundTrip h
    · exact hread.elim
    · exact nomatch heq
    · exact hcount
  case distance =>
    obtain hread | ⟨_, _, heq⟩ | ⟨-, _, _, heq⟩ := cause_of_roundTrip h
    · exact hread
    · exact nomatch heq
    · exact nomatch heq
  case size =>
    obtain hread | ⟨_, _, heq⟩ | ⟨-, _, _, heq⟩ := cause_of_roundTrip h
    · exact nomatch (show Item.encodedScript = .kawaiInstruction from hread)
    · exact nomatch heq
    · exact nomatch heq

/-- A jump forwards, one back to the start, one to itself and a long one to the
end: each gets the number of its label, and its distance comes back. -/
theorem insertLabels_undone_everywhere :
    decode [0x10, 3, 0x12, 2, 0x12, 0, 0x11, 2, 0]
        = .ok [.ordinary 0x10 [.ofKind .shortJump 3], .ordinary 0x12 [.ofKind .shortJump 2],
          .ordinary 0x12 [.ofKind .shortJump 0], .ordinary 0x11 [.ofKind .longJump 2]]
      ∧ insertLabels [.ordinary 0x10 [.ofKind .shortJump 3], .ordinary 0x12 [.ofKind .shortJump 2],
          .ordinary 0x12 [.ofKind .shortJump 0], .ordinary 0x11 [.ofKind .longJump 2]]
        = .ok [.label 0, .ordinary 0x10 [.ofKind .shortJump 1],
          .ordinary 0x12 [.ofKind .shortJump 0], .label 1, .ordinary 0x12 [.ofKind .shortJump 1],
          .ordinary 0x11 [.ofKind .longJump 2], .label 2]
      ∧ resolveLabels [.label 0, .ordinary 0x10 [.ofKind .shortJump 1],
          .ordinary 0x12 [.ofKind .shortJump 0], .label 1, .ordinary 0x12 [.ofKind .shortJump 1],
          .ordinary 0x11 [.ofKind .longJump 2], .label 2]
        = .ok [.ordinary 0x10 [.ofKind .shortJump 3], .ordinary 0x12 [.ofKind .shortJump 2],
          .ordinary 0x12 [.ofKind .shortJump 0], .ordinary 0x11 [.ofKind .longJump 2]]
      ∧ roundTrip [0x10, 3, 0x12, 2, 0x12, 0, 0x11, 2, 0] = .ok () := by
  refine ⟨?decode, ?insert, ((insertLabels_undone _).1 _ _ ?decode ?insert).1 ?few,
    (insertLabels_undone _).2.2.1.mpr ⟨_, _, ?decode, ?insert, ?few⟩⟩
  case decode => decide +kernel
  case insert => decide +kernel
  case few =>
    exact (insertLabels_undone [0x10, 3, 0x12, 2, 0x12, 0, 0x11, 2, 0]).2.1 (by decide) _
      (by decide +kernel)

/-- **A ladder with one rung more than there are words** has labels that share a
number, so its labels cannot be undone. -/
theorem ladder_not_undone :
    ∃ symbolic index number,
      decode (ladder (2 ^ 32 + 1)) = .ok (List.replicate (2 ^ 32 + 1) rung)
        ∧ insertLabels (List.replicate (2 ^ 32 + 1) rung) = .ok symbolic
        ∧ symbolic.resolveLabels = .error (.labelRedefined index number)
        ∧ roundTrip (ladder (2 ^ 32 + 1)) = .error (.labelRedefined index number) := by
  have hscript := decode_ladder (2 ^ 32 + 1)
  have hcount : 2 ^ 32 < (marked (List.replicate (2 ^ 32 + 1) rung)).length := by
    rw [length_marked_rungs]
    exact Nat.lt_succ_self _
  obtain ⟨symbolic, hsymbolic⟩ := exists_insertLabels_rungs (2 ^ 32 + 1)
  obtain ⟨index, number, herror⟩ :=
    redefined_of_insertLabels (isLabel_of_decode hscript) hsymbolic hcount
  exact ⟨symbolic, index, number, hscript, hsymbolic, herror,
    roundTrip_eq_error.mpr (.inr (.inr ⟨_, symbolic, hscript, hsymbolic, herror⟩))⟩

end Script

end FieldMap
