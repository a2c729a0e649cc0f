import FieldMap.CommandLine.Dump
import FieldMap.Proofs.JoinedBytecode
import FieldMap.Proofs.ListingRoundTrip

/-!
# The listing that a dump prints

A dump is a listing like any other: the line on the field and the lines that name the
scripts are comments, as long as no name holds a line feed, and the listings of the
scripts stand between them, each complete to its last line. So the lines of a dump
give the scripts one behind the other (`gives_dumpSlots`), and if jumps hold distances,
the dump is assembled to the bytecode of these scripts, put side by side
(`assemble_dumped`).
-/

namespace FieldMap.CommandLine

open FieldMap.Text Listing

/-! ## Outputs without a failure -/

theorem printedOnto_eq_none {out stdout : String} {output : List (Except Failure String)}
    (h : printedOnto out output = (stdout, none)) :
    ∃ texts : List String, output = texts.map .ok
      ∧ stdout.toList = out.toList ++ texts.flatMap String.toList := by
  induction output generalizing out with
  | nil =>
    rw [printedOnto, Prod.mk.injEq] at h
    exact ⟨[], rfl, by rw [h.1, List.flatMap_nil, List.append_nil]⟩
  | cons part rest ih =>
    cases part with
    | error failure => exact nomatch h
    | ok text =>
      obtain ⟨texts, rfl, hstdout⟩ := ih h
      exact ⟨text :: texts, rfl, by
        rw [hstdout, String.toList_append, List.append_assoc, List.flatMap_cons]⟩

/-- **A call that succeeds** prints every text of its output. -/
theorem exists_texts_of_status {output : List (Except Failure String)}
    (h : (Outcome.ofPrinted (printed output)).status = 0) :
    ∃ texts : List String, output = texts.map .ok
      ∧ (Outcome.ofPrinted (printed output)).stdout.toList = texts.flatMap String.toList := by
  cases hprinted : printed output with
  | mk stdout failure =>
    cases failure with
    | some failure =>
      rw [hprinted] at h
      exact nomatch h
    | none => exact printedOnto_eq_none hprinted

/-- Texts without a failure among them are all printed. -/
theorem printedOnto_map_ok (out : String) (texts : List String) :
    ∃ stdout, printedOnto out (texts.map .ok) = (stdout, none)
      ∧ stdout.toList = out.toList ++ texts.flatMap String.toList := by
  induction texts generalizing out with
  | nil => exact ⟨out, rfl, (List.append_nil _).symm⟩
  | cons text texts ih =>
    obtain ⟨stdout, hprinted, hstdout⟩ := ih (out ++ text)
    refine ⟨stdout, hprinted, ?_⟩
    rw [hstdout, String.toList_append, List.append_assoc, List.flatMap_cons]

/-! ## What a dump prints for a script -/

/-- **A line behind a number sign and a space** gives no instruction. -/
theorem gives_comment {line : String} (h : '\n' ∉ line.toList) :
    Gives ("# " ++ line ++ "\n").toList [] := by
  have hopening : '\n' ∉ ' ' :: line.toList := by
    rw [List.mem_cons, not_or]
    exact ⟨by decide, h⟩
  have htext : ("# " ++ line ++ "\n").toList = '#' :: (' ' :: line.toList) ++ ['\n'] := by
    rw [String.toList_append, String.toList_append]
    rfl
  exact htext ▸ Gives.comment hopening

/-- A number is written without a line feed. -/
theorem newline_not_mem_decimal (n : Nat) : '\n' ∉ (decimal n).toList := fun hmem =>
  absurd (isBlank_of_mem_decimal '\n' hmem) (by decide)

section

variable {s : ScriptSection}

theorem newline_not_mem_entityName (hnames : ∀ e ∈ s.entities, '\n' ∉ e.name.toList)
    (entity : Nat) : '\n' ∉ (entityName s entity).toList := by
  unfold entityName
  cases hget : s.entities[entity]? with
  | none => exact List.not_mem_nil
  | some e => exact hnames e (List.mem_of_getElem? hget)

/-- **What is printed for a slot**: a blank line, a line with its name, and the listing
of its script. -/
theorem dumpSlot_eq_ok {slot : ScriptSlot} {text : String} :
    dumpSlot false true s slot = .ok text
      ↔ ∃ (bytecode : Bytes) (script : Script), slot.bytecode = .ok bytecode
        ∧ Script.decode bytecode.toList = .ok script
        ∧ text = "\n# " ++ entityName s slot.entity ++ " script " ++ decimal slot.index ++ "\n"
            ++ Script.listing script := by
  unfold dumpSlot dumpScript
  simp only [Except.bind_eq_ok, Except.mapError_eq_ok, Except.pure_eq_ok, Except.ok.injEq, if_true,
    Bool.false_eq_true, if_false, exists_eq_right]
  constructor
  · rintro ⟨script, ⟨bytecode, hbytecode, hscript⟩, rfl⟩
    exact ⟨bytecode, script, hbytecode, hscript, rfl⟩
  · rintro ⟨bytecode, script, hbytecode, hscript, rfl⟩
    exact ⟨script, ⟨bytecode, hbytecode, hscript⟩, rfl⟩

/-- **The lines that are printed for a slot** give its script. -/
theorem gives_dumpSlot (hnames : ∀ e ∈ s.entities, '\n' ∉ e.name.toList) {slot : ScriptSlot}
    {text : String} (h : dumpSlot false true s slot = .ok text) :
    ∃ (bytecode : Bytes) (script : Script), slot.bytecode = .ok bytecode
      ∧ Script.decode bytecode.toList = .ok script ∧ Gives text.toList script := by
  obtain ⟨bytecode, script, hbytecode, hscript, rfl⟩ := dumpSlot_eq_ok.mp h
  refine ⟨bytecode, script, hbytecode, hscript, ?_⟩
  have hcomment : Gives ("# " ++ (entityName s slot.entity ++ " script " ++ decimal slot.index)
      ++ "\n").toList [] := by
    refine gives_comment ?_
    simp only [String.toList_append, List.mem_append, not_or]
    exact ⟨⟨newline_not_mem_entityName hnames _, by decide⟩, newline_not_mem_decimal _⟩
  have hgives := (Gives.blank.append hcomment).append
    (Gives.listing (Script.printable_of_decode hscript))
  have hblank : "\n# ".toList = ['\n'] ++ "# ".toList := by decide
  simp only [String.toList_append, List.append_assoc, List.nil_append, hblank] at hgives ⊢
  exact hgives

/-- **The lines that are printed for slots** give their scripts, one behind the
other. -/
theorem gives_dumpSlots (hnames : ∀ e ∈ s.entities, '\n' ∉ e.name.toList)
    {slots : List ScriptSlot} {texts : List String}
    (h : slots.map (dumpSlot false true s) = texts.map .ok) :
    ∃ (bytecodes : List Bytes) (scripts : List Script),
      slots.map ScriptSlot.bytecode = bytecodes.map .ok
        ∧ List.Forall₂ (fun bytes script => Script.decode bytes = .ok script)
          (bytecodes.map Array.toList) scripts
        ∧ Gives (texts.flatMap String.toList) scripts.flatten := by
  induction slots generalizing texts with
  | nil =>
    obtain rfl : texts = [] := List.map_eq_nil_iff.mp h.symm
    exact ⟨[], [], rfl, .nil, Gives.nil⟩
  | cons slot slots ih =>
    cases texts with
    | nil => exact nomatch h
    | cons text texts =>
      rw [List.map_cons, List.map_cons, List.cons.injEq] at h
      obtain ⟨bytecode, script, hbytecode, hscript, hgives⟩ := gives_dumpSlot hnames h.1
      obtain ⟨bytecodes, scripts, hbytecodes, hscripts, hrest⟩ := ih h.2
      refine ⟨bytecode :: bytecodes, script :: scripts, ?_, .cons hscript hscripts,
        hgives.append hrest⟩
      rw [List.map_cons, List.map_cons, hbytecode, hbytecodes]

end

/-! ## The whole dump -/

/-- **The opening of a dump** is a comment. -/
theorem gives_dumpHeader {header : ScriptHeader} (hname : '\n' ∉ header.name.toList)
    (hcreator : '\n' ∉ header.creator.toList) : Gives (dumpHeader false header).toList [] := by
  have hcomment : Gives ("# " ++ (header.name ++ " by " ++ header.creator ++ ", "
      ++ decimal header.entityCount ++ " entities") ++ "\n").toList [] := by
    refine gives_comment ?_
    simp only [String.toList_append, List.mem_append, not_or]
    exact ⟨⟨⟨⟨⟨hname, by decide⟩, hcreator⟩, by decide⟩, newline_not_mem_decimal _⟩, by decide⟩
  have hend : " entities\n".toList = " entities".toList ++ "\n".toList := by decide
  unfold dumpHeader
  rw [if_neg Bool.false_ne_true]
  simp only [String.toList_append, List.append_assoc, hend] at hcomment ⊢
  exact hcomment

/-- **A dump with distances is assembled again.** If a field has no line feed in its
names, and listing its scripts with distances in their jumps succeeds, be it those of
all entities or of one, then what is printed is assembled to the bytecode of these
scripts, in their order. -/
theorem assemble_dumped {file : FieldFile} {s : ScriptSection}
    (hparse : ScriptSection.parse file.scripts = .ok s) (hname : '\n' ∉ s.header.name.toList)
    (hcreator : '\n' ∉ s.header.creator.toList) (hnames : ∀ e ∈ s.entities, '\n' ∉ e.name.toList)
    (entity : Option Nat)
    (hstatus : (Outcome.ofPrinted (printed (dump false ⟨entity, true, false⟩ file))).status = 0) :
    ∃ bytecodes : List Bytes,
      (s.scripts.filter fun slot => entity.all (slot.entity == ·)).map ScriptSlot.bytecode
          = bytecodes.map .ok
        ∧ assemble true (Outcome.ofPrinted (printed (dump false ⟨entity, true, false⟩ file))).stdout
          = .ok (bytecodes.flatMap Array.toList) := by
  have hslots : (s.scripts.filter fun slot => entity.all (slot.entity == ·)) = dumpSlots entity s := by
    cases entity <;> rfl
  obtain ⟨texts, htexts, hstdout⟩ := exists_texts_of_status hstatus
  have hdump : dump false ⟨entity, true, false⟩ file
      = .ok (dumpHeader false s.header) :: (dumpSlots entity s).map (dumpSlot false true s) := by
    unfold dump
    rw [hparse]
    exact List.append_nil _
  rw [hdump] at htexts
  cases texts with
  | nil => exact nomatch htexts
  | cons header texts =>
    obtain ⟨hheader, htexts⟩ := List.cons.inj htexts
    obtain ⟨bytecodes, scripts, hbytecodes, hscripts, hgives⟩ := gives_dumpSlots hnames htexts
    refine ⟨bytecodes, hslots ▸ hbytecodes, ?_⟩
    rw [← Except.ok.inj hheader, List.flatMap_cons] at hstdout
    have hread := (gives_dumpHeader hname hcreator).append hgives
    rw [← hstdout] at hread
    have hdecode := Script.decode_flatten hscripts
    rw [← List.flatMap_def] at hdecode
    exact Script.assemble_eq_ok.mpr ⟨_, hread.parse, _, Script.checkDistances_of_decode hdecode,
      Script.encode_of_decode hdecode⟩

/-- A field with two entities: a jump to the end of the first script of one, and a
second one that its other slots share; a single script of the other. -/
def twoEntities : FieldFile where
  scripts := List.toArray <|
    [2, 5, 2, 0, 185, 0, 0, 0, 0, 2] ++ List.replicate 6 0 ++ [97, 98, 0, 0, 0, 0, 0, 0]
      ++ [109, 100, 49, 0, 0, 0, 0, 0] ++ [100, 105, 114, 0, 0, 0, 0, 0] ++ [99, 108, 0, 0, 0, 0, 0, 0]
      ++ ([176, 0] ++ (List.replicate 31 [179, 0]).flatten) ++ (List.replicate 32 [180, 0]).flatten
      ++ [0x10, 1, 0x00] ++ [0x00] ++ [0x12, 0, 0x24, 5, 0] ++ [0, 0]
  camera := #[]
  modelLoader := #[]
  palette := #[]
  walkmesh := #[]
  tileMap := #[]
  encounter := #[]
  triggers := #[]
  background := #[]

/-- The scripts of both entities, under their names: two of the first entity, and one of
the second. -/
theorem assemble_dumped_twoEntities :
    ∃ s, ScriptSection.parse twoEntities.scripts = .ok s
      ∧ s.entities.map Entity.name = ["dir", "cl"]
      ∧ s.scripts.map ScriptSlot.bytecode
        = [.ok #[0x10, 1, 0x00], .ok #[0x00], .ok #[0x12, 0, 0x24, 5, 0]]
      ∧ assemble true
          (Outcome.ofPrinted (printed (dump false ⟨none, true, false⟩ twoEntities))).stdout
        = .ok [0x10, 1, 0x00, 0x00, 0x12, 0, 0x24, 5, 0] := by
  obtain ⟨s, hparse⟩ := Except.isOk_iff.mp
    (by decide +kernel : (ScriptSection.parse twoEntities.scripts).isOk = true)
  have hparts : ((ScriptSection.parse twoEntities.scripts).map fun s =>
        (s.header, s.entities.map Entity.name, s.scripts.map ScriptSlot.bytecode))
      = .ok (⟨1282, 2, 0, 185, 0, 512, "ab", "md1"⟩, ["dir", "cl"],
        [.ok #[0x10, 1, 0x00], .ok #[0x00], .ok #[0x12, 0, 0x24, 5, 0]]) := by decide +kernel
  rw [hparse] at hparts
  obtain ⟨hheader, hparts⟩ := Prod.mk.inj (Except.ok.inj hparts)
  obtain ⟨hnames, hscripts⟩ := Prod.mk.inj hparts
  have hlines : ∀ e ∈ s.entities, '\n' ∉ e.name.toList := by
    have hall : ∀ name ∈ s.entities.map Entity.name, '\n' ∉ name.toList := by
      rw [hnames]
      decide
    exact fun e hmem => hall e.name (List.mem_map_of_mem hmem)
  obtain ⟨bytecodes, hbytecodes, hassemble⟩ := assemble_dumped hparse (hheader ▸ by decide)
    (hheader ▸ by decide) hlines none (by decide +kernel)
  have hall : (s.scripts.filter fun slot => Option.all (slot.entity == ·) none) = s.scripts :=
    List.filter_eq_self.mpr fun _ _ => rfl
  rw [hall, hscripts] at hbytecodes
  have hthree : bytecodes = [#[0x10, 1, 0x00], #[0x00], #[0x12, 0, 0x24, 5, 0]] :=
    List.map_injective_iff.mpr (fun _ _ => Except.ok.inj) hbytecodes.symm
  rw [hthree] at hassemble
  exact ⟨s, hparse, hnames, hscripts, hassemble⟩

end FieldMap.CommandLine
