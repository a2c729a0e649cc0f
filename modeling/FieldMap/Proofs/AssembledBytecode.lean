import FieldMap.Proofs.EncodedInstructions
import FieldMap.Proofs.NormalForm
import FieldMap.Proofs.ParsedListing

/-!
# What a listing is assembled to

Encoding cuts off what does not fit, and it would do so without a word. That
this never happens to a listing is due to three checks in three places. The
reader of a line checks every operand but the distance of a jump, for which
only one of the other two is responsible: `checkDistances` if the listing holds
distances, and `resolveLabels` if it holds labels.

What comes out of either is in range (`mem_of_resolve`), so it can be encoded
without a loss, and the bytecode of a listing is decoded as the script of the
listing in the form of bytecode (`assemble_decoded`).
-/

namespace FieldMap

open InstructionSet

namespace Script

/-- Labels leave no bytes. -/
theorem encode_unlabelled (script : Script) : encode (unlabelled script) = encode script := by
  induction script using label_induction with
  | nil => rfl
  | label number rest ih =>
    rw [unlabelled_label, ih]
    rfl
  | cons instruction rest h ih => rw [unlabelled_cons h, encode_cons h, encode_cons h, ih]

/-- **A resolved jump is in range**, since its distance was compared with the bounds
of its operand. -/
theorem Resolves.inRange {labels : List (Nat × Nat)} {place : Instruction × Nat}
    {result : Instruction} (h : Resolves labels place result) (hchecked : place.1.Checked) :
    result.WellShaped ∧ result.InRange := by
  rcases h with ⟨hnone, rfl⟩ | ⟨jump, number, target, hvalue, -, hmin, hmax, rfl⟩
  · refine ⟨hchecked.wellShaped, hchecked.inRange (fun index operand hindex hget => ?_)⟩
    have hvalue := Instruction.jumpValue?_eq_some.mpr ⟨hindex, operand, hget, rfl⟩
    exact nomatch hnone.symm.trans hvalue
  · have hset := hchecked.setValue hvalue (place.1.distanceTo place.2 target)
    refine ⟨hset.wellShaped, hset.inRange (fun index operand hindex hget => ?_)⟩
    have hvalue := Instruction.jumpValue?_setValue hvalue (place.1.distanceTo place.2 target)
    obtain ⟨held, kind, hheld, heq, hformat, hjump⟩ :=
      Instruction.jump_format hset.wellShaped hvalue
    have hjumpIndex := (Instruction.jumpValue?_eq_some.mp hvalue).1
    obtain rfl : jump = index := Option.some.inj (hjumpIndex.symm.trans hindex)
    obtain rfl : held = operand := Option.some.inj (hheld.symm.trans hget)
    rw [← Instruction.map_max_setValue place.1 jump jump, hheld] at hmax
    rw [OperandFormat.holds_iff, heq]
    refine ⟨?_, hmax⟩
    rwa [hformat, Instruction.min_format_of_isJump hjump]

/-- **Resolving labels checks the distances** that it fills in. -/
theorem mem_of_resolveLabels {script resolved : Script}
    (hchecked : ∀ instruction ∈ script, instruction.Checked)
    (h : script.resolveLabels = .ok resolved) :
    ∀ instruction ∈ resolved, instruction.WellShaped ∧ instruction.InRange := by
  unfold resolveLabels at h
  split at h
  · exact nomatch h
  · intro instruction hmem
    obtain ⟨place, hplace, hresolve⟩ := List.exists_of_mapM_eq_ok h instruction hmem
    exact (resolveJump_eq_ok.mp hresolve).inRange
      (hchecked _ (mem_of_mem_placed (List.mem_of_mem_filter hplace)))

end Script

namespace Listing

open Script

/-- **What is wrong with a distance** is that it is out of range. -/
theorem distanceFault?_eq_none {place : PlacedInstruction} :
    distanceFault? place = none
      ↔ ∀ index operand, place.instruction.jumpIndex? = some index →
        place.instruction.operands[index]? = some operand →
        operand.format.holds operand.value = true := by
  unfold distanceFault?
  constructor
  · intro h index operand hindex hget
    rw [hindex, Option.bind_some, hget] at h
    cases hcheck : operand.check with
    | ok _ => exact Operand.check_eq_ok.mp hcheck
    | error e =>
      dsimp only at h
      rw [hcheck] at h
      exact nomatch h
  · intro h
    split
    · rfl
    · rename_i operand hoperand
      obtain ⟨index, hindex, hget⟩ := Option.bind_eq_some_iff.mp hoperand
      rw [Operand.check_eq_ok.mpr (h index operand hindex hget)]

/-- **Checking distances changes nothing**, and lets nothing pass that is out of
range. -/
theorem checkDistances_eq_ok {script resolved : Script} :
    checkDistances script = .ok resolved
      ↔ script = resolved ∧ ∀ place ∈ script.placed, distanceFault? place = none := by
  unfold checkDistances
  rw [← List.findSome?_eq_none_iff]
  split
  · rename_i fault hfault
    refine iff_of_false (fun h => nomatch h) (fun h => ?_)
    exact nomatch hfault.symm.trans h.2
  · rename_i hnone
    rw [Except.ok.injEq]
    exact (and_iff_left hnone).symm

theorem mem_of_checkDistances {script resolved : Script}
    (hchecked : ∀ instruction ∈ script, instruction.Checked)
    (h : checkDistances script = .ok resolved) :
    ∀ instruction ∈ resolved, instruction.WellShaped ∧ instruction.InRange := by
  obtain ⟨rfl, hfaults⟩ := checkDistances_eq_ok.mp h
  intro instruction hmem
  rw [← map_instruction_placed script] at hmem
  obtain ⟨place, hplace, rfl⟩ := List.mem_map.mp hmem
  have hinstruction := hchecked _ (mem_of_mem_placed hplace)
  exact ⟨hinstruction.wellShaped,
    hinstruction.inRange (distanceFault?_eq_none.mp (hfaults place hplace))⟩

/-- **Every operand that is encoded is in range**, whichever form the jumps have. -/
theorem mem_of_resolve {text : String} {rawJumps : Bool} {script resolved : Script}
    (hparse : parse text = .ok script) (h : resolve rawJumps script = .ok resolved) :
    ∀ instruction ∈ resolved, instruction.WellShaped ∧ instruction.InRange := by
  have hchecked := checked_of_parse hparse
  unfold resolve at h
  split_ifs at h
  · exact mem_of_checkDistances hchecked h
  · exact mem_of_resolveLabels hchecked (Except.mapError_eq_ok.mp h)

/-- **A listing whose jumps are resolved is encoded**, and its bytecode is decoded
as what is left without the labels. -/
theorem exists_decode_of_resolve {text : String} {rawJumps : Bool} {script resolved : Script}
    (hparse : parse text = .ok script) (h : resolve rawJumps script = .ok resolved) :
    ∃ bytes, encode resolved = .ok bytes ∧ assemble rawJumps text = .ok bytes
      ∧ decode bytes = .ok (unlabelled resolved) := by
  have hmem : ∀ instruction ∈ unlabelled resolved,
      instruction.WellShaped ∧ instruction.InRange ∧ instruction.isLabel = false :=
    fun instruction hmem =>
      let ⟨hshape, hrange⟩ := mem_of_resolve hparse h instruction (List.mem_of_mem_filter hmem)
      ⟨hshape, hrange, isLabel_of_mem_unlabelled instruction hmem⟩
  obtain ⟨bytes, hencode, hdecode⟩ := exists_decode_of_wellShaped hmem
  rw [encode_unlabelled] at hencode
  exact ⟨bytes, hencode, assemble_eq_ok.mpr ⟨script, hparse, resolved, h, hencode⟩, hdecode⟩

/-- **The bytecode of a listing means what the listing says.** If the jumps of a
listing hold distances, its bytecode is decoded as the listing without its
labels; if they hold labels, as the listing with the labels resolved. Nothing is
cut off on the way: once the jumps are resolved, every operand is in range, and
encoding cannot fail. -/
theorem assemble_decoded (text : String) :
    (∀ bytes, assemble true text = .ok bytes →
        ∃ script, parse text = .ok script ∧ decode bytes = .ok (unlabelled script))
      ∧ (∀ bytes, assemble false text = .ok bytes →
        ∃ script resolved, parse text = .ok script ∧ resolveLabels script = .ok resolved
          ∧ decode bytes = .ok resolved)
      ∧ ∀ rawJumps script resolved, parse text = .ok script →
        resolve rawJumps script = .ok resolved →
        (∀ instruction ∈ resolved, instruction.InRange)
          ∧ ∃ bytes, encode resolved = .ok bytes ∧ assemble rawJumps text = .ok bytes := by
  have hdecoded : ∀ {rawJumps bytes}, assemble rawJumps text = .ok bytes →
      ∃ script resolved, parse text = .ok script ∧ resolve rawJumps script = .ok resolved
        ∧ decode bytes = .ok (unlabelled resolved) := fun h => by
    obtain ⟨script, hparse, resolved, hresolve, hencode⟩ := assemble_eq_ok.mp h
    obtain ⟨bytes, hbytes, -, hdecode⟩ := exists_decode_of_resolve hparse hresolve
    obtain rfl := Except.ok.inj (hencode.symm.trans hbytes)
    exact ⟨script, resolved, hparse, hresolve, hdecode⟩
  refine ⟨fun bytes h => ?_, fun bytes h => ?_, fun rawJumps script resolved hparse h => ⟨?_, ?_⟩⟩
  · obtain ⟨script, resolved, hparse, hresolve, hdecode⟩ := hdecoded h
    obtain ⟨rfl, -⟩ := checkDistances_eq_ok.mp hresolve
    exact ⟨script, hparse, hdecode⟩
  · obtain ⟨script, resolved, hparse, hresolve, hdecode⟩ := hdecoded h
    have hresolved := Except.mapError_eq_ok.mp hresolve
    rw [unlabelled_eq_self (isLabel_of_resolveLabels hresolved)] at hdecode
    exact ⟨script, resolved, hparse, hresolved, hdecode⟩
  · exact fun instruction hmem => (mem_of_resolve hparse h instruction hmem).2
  · obtain ⟨bytes, hencode, hassemble, -⟩ := exists_decode_of_resolve hparse h
    exact ⟨bytes, hencode, hassemble⟩

/-- A comparison of packed and negative operands that jumps to a label at the end: the
last number of its line is its distance in one form, and its label in the
other. -/
theorem assemble_decoded_labelled :
    assemble true "ifsw 15 1 -2 0x3 5 2\nKAWAI 6 170\nLABEL 2"
        = .ok [0x16, 0xF1, 0xFE, 0xFF, 3, 0, 5, 2, 0x28, 4, 6, 0xAA]
      ∧ (∃ script, parse "ifsw 15 1 -2 0x3 5 2\nKAWAI 6 170\nLABEL 2" = .ok script
        ∧ decode [0x16, 0xF1, 0xFE, 0xFF, 3, 0, 5, 2, 0x28, 4, 6, 0xAA] = .ok (unlabelled script))
      ∧ assemble false "ifsw 15 1 -2 0x3 5 2\nKAWAI 6 170\nLABEL 2"
        = .ok [0x16, 0xF1, 0xFE, 0xFF, 3, 0, 5, 5, 0x28, 4, 6, 0xAA]
      ∧ (∃ script resolved, parse "ifsw 15 1 -2 0x3 5 2\nKAWAI 6 170\nLABEL 2" = .ok script
        ∧ resolveLabels script = .ok resolved
        ∧ decode [0x16, 0xF1, 0xFE, 0xFF, 3, 0, 5, 5, 0x28, 4, 6, 0xAA] = .ok resolved)
      ∧ parse "ifsw 15 1 -2 0x3 5 2\nKAWAI 6 170\nLABEL 2"
        = .ok [.ordinary 0x16 [.ofKind .bank 15, .ofKind .bank 1, .ofKind .signedWord (-2),
            .ofKind .signedWord 3, .ofKind .operator 5, .ofKind .shortJump 2],
          .kawai 6 [.raw 0xAA], .label 2]
      ∧ resolve false [.ordinary 0x16 [.ofKind .bank 15, .ofKind .bank 1, .ofKind .signedWord (-2),
            .ofKind .signedWord 3, .ofKind .operator 5, .ofKind .shortJump 2],
          .kawai 6 [.raw 0xAA], .label 2]
        = .ok [.ordinary 0x16 [.ofKind .bank 15, .ofKind .bank 1, .ofKind .signedWord (-2),
            .ofKind .signedWord 3, .ofKind .operator 5, .ofKind .shortJump 5],
          .kawai 6 [.raw 0xAA]]
      ∧ ∃ bytes, encode [.ordinary 0x16 [.ofKind .bank 15, .ofKind .bank 1,
            .ofKind .signedWord (-2), .ofKind .signedWord 3, .ofKind .operator 5,
            .ofKind .shortJump 5], .kawai 6 [.raw 0xAA]] = .ok bytes
        ∧ assemble false "ifsw 15 1 -2 0x3 5 2\nKAWAI 6 170\nLABEL 2" = .ok bytes := by
  refine ⟨?raw, (assemble_decoded _).1 _ ?raw, ?symbolic, (assemble_decoded _).2.1 _ ?symbolic,
    ?parse, ?resolve, ((assemble_decoded _).2.2 false _ _ ?parse ?resolve).2⟩ <;> decide +kernel

end Listing

end FieldMap
