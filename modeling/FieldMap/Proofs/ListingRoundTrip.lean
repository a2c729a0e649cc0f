import FieldMap.Listing.Assembly
import FieldMap.Proofs.ListingLines
import FieldMap.Proofs.RoundTrip

/-!
# A script and its listing

A listing is read back as the script that was written, if it can hold every
instruction of that script (`parse_listing`). It can hold whatever was
decoded. In the symbolic form a jump holds the number of a label, which may
be larger than its operand, and the listing can hold that too. A label it can
hold only if it is numbered below `2 ^ 31` (`printable_of_insertLabels`).

So bytecode is assembled again from the listing of its distances, and from
the listing of its symbolic form exactly if its jumps lead to at most
`2 ^ 31` boundaries (`listing_lossless`). A script would have to be longer
than `2 ^ 32` bytes to have more, since a label takes up the two bytes of a
jump; a ladder with that many rungs is one (`ladder_listing_refused`). A file
states the size of a section in 32 bits, so none of its scripts is that long.
-/

namespace FieldMap

open FieldMap.Text

namespace Listing

/-! ## Reading what was written -/

/-- A listing is cut into the lines of its instructions, and an empty line at
its end. -/
theorem lines_listing (script : Script) :
    lines script.listing.toList
      = (script.map fun instruction => instruction.line.toList) ++ [[]] := by
  have htext : script.listing.toList
      = (script.map fun instruction => instruction.line.toList).flatMap (· ++ ['\n']) := by
    unfold Script.listing
    rw [String.toList_join, List.flatMap_map, List.flatMap_map]
    refine congrArg (List.flatMap · script) (funext fun instruction => ?_)
    exact String.toList_append
  rw [htext]
  refine lines_flatMap (fun line hmem => ?_)
  obtain ⟨instruction, -, rfl⟩ := List.mem_map.mp hmem
  exact instruction.newline_not_mem_line

/-- **A listing is read back** if it can hold every instruction. -/
theorem parse_listing {script : Script} (h : ∀ instruction ∈ script, instruction.Printable) :
    parse script.listing = .ok script := (Gives.listing h).parse

/-- Where a listing can be read, each line of it can. -/
theorem readLine_of_readLines {done script : Script} {number : Nat} {texts : List (List Char)}
    (h : readLines done number texts = .ok script) :
    ∀ line ∈ texts, ∃ read, readLine line = .ok read :=
  let ⟨_, hread, _⟩ := readLines_eq_ok.mp h
  List.exists_of_mem_of_mapM_eq_ok hread

/-- **A listing with a label beyond the bound** cannot be read. -/
theorem lt_of_parse {script result : Script} (h : parse script.listing = .ok result) {number : Nat}
    (hmem : .label number ∈ script) : number < 2 ^ 31 := by
  unfold parse at h
  rw [lines_listing] at h
  have hline := readLine_of_readLines h (Instruction.label number).line.toList
    (List.mem_append_left _
      (List.mem_map_of_mem (f := fun instruction => instruction.line.toList) hmem))
  obtain ⟨read, hread⟩ := hline
  exact lt_of_readLine_label hread

end Listing

/-! ## What the listings of a decoded script hold -/

namespace Instruction

/-- Instructions in range can be held. -/
theorem printable_of_inRange {instruction : Instruction} (hshape : instruction.WellShaped)
    (hrange : instruction.InRange) (hlabel : instruction.isLabel = false) :
    instruction.Printable := by
  refine ⟨hshape, fun operand hmem => ?_, fun number heq => ?_⟩
  · obtain ⟨kind, hformat⟩ := hshape.exists_kind operand hmem
    exact Operand.printable_of_holds hformat (hrange operand hmem)
  · rw [heq] at hlabel
    exact nomatch hlabel

/-- **A jump can hold any number** of 64 bits, in range or not. -/
theorem Printable.setValue {instruction : Instruction} (h : instruction.Printable) {index : Nat}
    {number value : Int} (hjump : instruction.jumpValue? = some (index, number))
    (hvalue : value.natAbs ≤ 2 ^ 63 - 1) : (instruction.setValue index value).Printable := by
  refine ⟨h.wellShaped.setValue hjump value, fun operand hmem => ?_, fun label heq => ?_⟩
  · obtain ⟨jump, kind, hget, -, hformat, hkind⟩ := jump_format h.wellShaped hjump
    rcases mem_operands_setValue hmem with hmem | ⟨old, hold, rfl⟩
    · exact h.operands operand hmem
    · have hjumps : old.format.kind.isJump = true := by
        rw [← Option.some.inj (hget.symm.trans hold), hformat]
        exact hkind
      unfold Operand.Printable
      rw [if_pos hjumps]
      exact hvalue
  · have hlabel := isLabel_setValue instruction index value
    rw [heq] at hlabel
    rw [jumpValue?_eq_none_of_isLabel hlabel.symm] at hjump
    exact nomatch hjump

end Instruction

namespace Script

theorem printable_of_decode {bytes : List UInt8} {script : Script} (h : decode bytes = .ok script) :
    ∀ instruction ∈ script, instruction.Printable := fun instruction hmem =>
  let ⟨_, hreads⟩ := reads_of_mem_decode h instruction hmem
  Instruction.printable_of_inRange hreads.wellShaped hreads.inRange hreads.isLabel

/-- **The symbolic form of a decoded script** can be held, if there are not
too many labels. -/
theorem printable_of_insertLabels {bytes : List UInt8} {script symbolic : Script}
    (hscript : decode bytes = .ok script) (h : script.insertLabels = .ok symbolic)
    (hcount : script.marked.length ≤ 2 ^ 31) :
    ∀ instruction ∈ symbolic, instruction.Printable := by
  have hlabels := isLabel_of_decode hscript
  obtain ⟨hlead, -, hinstructions⟩ := (insertLabels_eq_ok hlabels).mp h
  intro instruction hmem
  cases hlabel : instruction.isLabel with
  | true =>
    cases instruction with
    | label number =>
      refine ⟨trivial, fun _ hop => absurd hop List.not_mem_nil, fun n heq => ?_⟩
      exact ((label_mem_of_insertLabels hlabels h).mp (heq ▸ hmem)).1.trans_le hcount
    | _ => exact nomatch hlabel
  | false =>
    have hplaced : instruction ∈ unlabelled symbolic :=
      List.mem_filter.mpr ⟨hmem, by rw [hlabel]; rfl⟩
    rw [hinstructions] at hplaced
    obtain ⟨place, hplace, rfl⟩ := List.mem_map.mp hplaced
    have hprintable := printable_of_decode hscript _ (mem_of_mem_placed hplace)
    rcases symbolicAt_cases hplace (hlead place hplace) with
      ⟨-, hsymbolic⟩ | ⟨index, value, target, hvalue, -, -, hsymbolic⟩
    · rw [hsymbolic]
      exact hprintable
    · -- a jump can hold any number that a label can have
      have hnumber := labelNumber_lt (script.marked.idxOf target)
      rw [hsymbolic]
      refine hprintable.setValue hvalue ?_
      rw [Int.natAbs_natCast]
      omega

/-! ## There and back -/

/-- The three steps of assembling a listing. -/
theorem assemble_eq_ok {rawJumps : Bool} {text : String} {bytes : List UInt8} :
    Listing.assemble rawJumps text = .ok bytes
      ↔ ∃ script, Listing.parse text = .ok script
        ∧ ∃ resolved, Listing.resolve rawJumps script = .ok resolved
          ∧ encode resolved = .ok bytes := by
  unfold Listing.assemble
  simp only [Except.bind_eq_ok, Except.mapError_eq_ok]

/-- The distances of a decoded script fit. -/
theorem checkDistances_of_decode {bytes : List UInt8} {script : Script}
    (h : decode bytes = .ok script) : Listing.checkDistances script = .ok script := by
  have hnone : script.placed.findSome? Listing.distanceFault? = none := by
    refine List.findSome?_eq_none_iff.mpr (fun place hplace => ?_)
    obtain ⟨rest, hreads⟩ := reads_of_mem_decode h _ (mem_of_mem_placed hplace)
    unfold Listing.distanceFault?
    split
    · rfl
    · rename_i operand hoperand
      obtain ⟨index, -, hget⟩ := Option.bind_eq_some_iff.mp hoperand
      rw [Operand.check_eq_ok.mpr (hreads.inRange operand (List.mem_of_getElem? hget))]
  unfold Listing.checkDistances
  rw [hnone]

theorem assemble_listing_of_decode {bytes : List UInt8} {script : Script}
    (h : decode bytes = .ok script) : Listing.assemble true script.listing = .ok bytes :=
  assemble_eq_ok.mpr ⟨script, Listing.parse_listing (printable_of_decode h), script,
    checkDistances_of_decode h, encode_of_decode h⟩

/-- A listing with too many labels cannot be read. -/
theorem parse_listing_of_insertLabels {bytes : List UInt8} {script symbolic : Script}
    (hscript : decode bytes = .ok script) (h : script.insertLabels = .ok symbolic)
    (hcount : 2 ^ 31 < script.marked.length) : ∃ e, Listing.parse symbolic.listing = .error e := by
  cases hread : Listing.parse symbolic.listing with
  | error e => exact ⟨e, rfl⟩
  | ok read =>
    have hmem : .label (2 ^ 31) ∈ symbolic :=
      (label_mem_of_insertLabels (isLabel_of_decode hscript) h).mpr ⟨hcount, by decide⟩
    exact absurd (Listing.lt_of_parse hread hmem) (Nat.lt_irrefl _)

/-- **Listings are lossless.** The listing of a decoded script is assembled to
the bytes that were decoded. So is the listing of its symbolic form if the
jumps of the script lead to at most `2 ^ 31` boundaries, which is so for every
script of up to `2 ^ 32` bytes; with more of them there is a label that the
listing cannot hold, and it is refused. -/
theorem listing_lossless {bytes : List UInt8} {script : Script}
    (hscript : decode bytes = .ok script) :
    Listing.assemble true script.listing = .ok bytes
      ∧ (bytes.length ≤ 2 ^ 32 → script.marked.length ≤ 2 ^ 31)
      ∧ ∀ symbolic, script.insertLabels = .ok symbolic →
        (script.marked.length ≤ 2 ^ 31 → Listing.assemble false symbolic.listing = .ok bytes)
          ∧ (2 ^ 31 < script.marked.length →
            ∃ e, Listing.assemble false symbolic.listing = .error e) := by
  refine ⟨assemble_listing_of_decode hscript, fun hlength => ?_,
    fun symbolic h => ⟨fun hcount => ?_, fun hcount => ?_⟩⟩
  · have hbytes := two_mul_length_marked_le hscript
    omega
  · have hresolve := resolveLabels_of_decode hscript h (hcount.trans (by decide))
    exact assemble_eq_ok.mpr ⟨symbolic,
      Listing.parse_listing (printable_of_insertLabels hscript h hcount), script,
      Except.mapError_eq_ok.mpr hresolve, encode_of_decode hscript⟩
  · obtain ⟨e, hread⟩ := parse_listing_of_insertLabels hscript h hcount
    refine ⟨.listing e, ?_⟩
    rw [Listing.assemble, hread]
    rfl

/-- A script with a negative coordinate, a jump to the end, and the two forms
with a sub-instruction, in both of its listings. -/
theorem listing_lossless_mixed :
    decode [0xA8, 0xF1, 0xFE, 0xFF, 3, 0, 0x10, 9, 0x0F, 0xF8, 5, 0xFF, 0x28, 4, 6, 0xAA]
        = .ok [.ordinary 0xA8 [.ofKind .bank 0xF, .ofKind .bank 1, .ofKind .coordX (-2),
            .ofKind .coordY 3],
          .ordinary 0x10 [.ofKind .shortJump 9], .special 0xF8 [.raw 5, .raw 0xFF],
          .kawai 6 [.raw 0xAA]]
      ∧ Listing.assemble true (listing [.ordinary 0xA8 [.ofKind .bank 0xF, .ofKind .bank 1,
            .ofKind .coordX (-2), .ofKind .coordY 3],
          .ordinary 0x10 [.ofKind .shortJump 9], .special 0xF8 [.raw 5, .raw 0xFF],
          .kawai 6 [.raw 0xAA]])
        = .ok [0xA8, 0xF1, 0xFE, 0xFF, 3, 0, 0x10, 9, 0x0F, 0xF8, 5, 0xFF, 0x28, 4, 6, 0xAA]
      ∧ insertLabels [.ordinary 0xA8 [.ofKind .bank 0xF, .ofKind .bank 1, .ofKind .coordX (-2),
            .ofKind .coordY 3],
          .ordinary 0x10 [.ofKind .shortJump 9], .special 0xF8 [.raw 5, .raw 0xFF],
          .kawai 6 [.raw 0xAA]]
        = .ok [.ordinary 0xA8 [.ofKind .bank 0xF, .ofKind .bank 1, .ofKind .coordX (-2),
            .ofKind .coordY 3],
          .ordinary 0x10 [.ofKind .shortJump 0], .special 0xF8 [.raw 5, .raw 0xFF],
          .kawai 6 [.raw 0xAA], .label 0]
      ∧ Listing.assemble false (listing [.ordinary 0xA8 [.ofKind .bank 0xF, .ofKind .bank 1,
            .ofKind .coordX (-2), .ofKind .coordY 3],
          .ordinary 0x10 [.ofKind .shortJump 0], .special 0xF8 [.raw 5, .raw 0xFF],
          .kawai 6 [.raw 0xAA], .label 0])
        = .ok [0xA8, 0xF1, 0xFE, 0xFF, 3, 0, 0x10, 9, 0x0F, 0xF8, 5, 0xFF, 0x28, 4, 6, 0xAA] := by
  refine ⟨?decode, (listing_lossless ?decode).1, ?insert,
    ((listing_lossless ?decode).2.2 _ ?insert).1 ((listing_lossless ?decode).2.1 (by decide))⟩
    <;> decide +kernel

/-- **A ladder with one rung too many** has a label that its listing cannot hold:
the bytecode is decoded and labelled, and the listing refused. -/
theorem ladder_listing_refused :
    (∃ symbolic e, decode (ladder (2 ^ 31 + 1)) = .ok (List.replicate (2 ^ 31 + 1) rung)
        ∧ insertLabels (List.replicate (2 ^ 31 + 1) rung) = .ok symbolic
        ∧ .label (2 ^ 31) ∈ symbolic
        ∧ Listing.assemble false symbolic.listing = .error e)
      ∧ Listing.parse "LABEL 2147483648" = .error ⟨1, .outOfRange "2147483648" .labelNumber⟩ := by
  have hscript := decode_ladder (2 ^ 31 + 1)
  have hcount : 2 ^ 31 < (marked (List.replicate (2 ^ 31 + 1) rung)).length := by
    rw [length_marked_rungs]
    exact Nat.lt_succ_self _
  obtain ⟨symbolic, hsymbolic⟩ := exists_insertLabels_rungs (2 ^ 31 + 1)
  obtain ⟨e, hread⟩ := parse_listing_of_insertLabels hscript hsymbolic hcount
  have hmem : .label (2 ^ 31) ∈ symbolic :=
    (label_mem_of_insertLabels isLabel_rungs hsymbolic).mpr ⟨hcount, by decide⟩
  refine ⟨⟨symbolic, .listing e, hscript, hsymbolic, hmem, ?_⟩, by decide +kernel⟩
  rw [Listing.assemble, hread]
  rfl

/-- What the symbolic listing of that script looks like. -/
example :
    listing [.ordinary 0xA8 [.ofKind .bank 0xF, .ofKind .bank 1, .ofKind .coordX (-2),
        .ofKind .coordY 3], .ordinary 0x10 [.ofKind .shortJump 0],
      .special 0xF8 [.raw 5, .raw 0xFF], .kawai 6 [.raw 0xAA], .label 0]
      = "MOVE 15 1 -2 3\nJMPF 0\nSPECIAL 0xF8 5 255\nKAWAI 0x06 170\nLABEL 0\n" := by
  decide +kernel

end Script

end FieldMap
