import FieldMap.Proofs.DumpedScripts
import FieldMap.Proofs.JoinedListings
import FieldMap.Proofs.PrintedTexts

/-!
# Dialog texts behind a listing

A dump with the dialog texts of a field is the dump without them, and behind it a line for each
text, which opens with a number sign. So the texts should be comments of the listing. But a
text with a line break is printed over several lines, of which only the first one is a comment.
The others are read like any line of a listing: if they are blank or open a comment of their
own, then nothing happens (`IsSilent`), and if they do not, they are instructions or errors.

So the listing of the scripts is read as if there were no texts if all texts are silent, and, as
long as it can be read itself, in no other case (`parse_dumped_texts`). A text of one line is
silent. A text that says `RET` on its second line is an instruction of the last script
(`texts_read_as_instructions`).
-/

namespace FieldMap.CommandLine

open FieldMap.Text Listing

/-- **How a dump in text mode ends.** -/
def dumpOutcome (options : DumpOptions) (file : FieldFile) : Outcome :=
  .ofPrinted (printed (dump false options file))

/-! ## The lines of a text -/

/-- **Whether the lines behind the first line of a text give no instruction**, when the text is
printed. -/
def IsSilent (text : Bytes) : Prop :=
  ∀ piece ∈ (text.toList.splitOn Dialog.lineBreak).tail,
    readLine (Dialog.decode piece).toList = .ok none

/-- A text without a line break has no other lines. -/
theorem isSilent_of_not_mem {text : Bytes} (h : Dialog.lineBreak ∉ text.toList) :
    IsSilent text := by
  intro piece hmem
  rw [List.splitOn_eq_singleton h] at hmem
  exact absurd hmem List.not_mem_nil

/-- What is printed for a text, without its last line feed. -/
def textLines (index : Nat) (text : Bytes) : String :=
  "# text " ++ decimal index ++ ": " ++ Dialog.decode text.toList

theorem toList_textLines (index : Nat) (text : Bytes) :
    (textLines index text).toList
      = '#' :: (" text " ++ decimal index ++ ": ").toList ++ (Dialog.decode text.toList).toList := by
  have hopening : "# text ".toList = '#' :: " text ".toList := by decide
  unfold textLines
  simp only [String.toList_append, hopening, List.cons_append]

theorem dumpText_eq_ok {s : ScriptSection} {index : Nat} {out : String} :
    dumpText s index = .ok out
      ↔ ∃ text, s.text index = .ok text ∧ textLines index text ++ "\n" = out := by
  unfold dumpText textLines
  simp only [Except.bind_eq_ok, Except.mapError_eq_ok, Except.pure_eq_ok, Except.ok.injEq]

/-- **A printed text gives no instruction** exactly if it is silent: its first line is a
comment. -/
theorem readLine_textLines_iff {index : Nat} {text : Bytes} :
    (∀ line ∈ lines (textLines index text).toList, readLine line = .ok none) ↔ IsSilent text := by
  have hfront : '\n' ∉ '#' :: (" text " ++ decimal index ++ ": ").toList := by
    simp only [String.toList_append, List.mem_cons, List.mem_append, not_or]
    exact ⟨by decide, ⟨by decide, newline_not_mem_decimal index⟩, by decide⟩
  unfold IsSilent
  rw [toList_textLines, lines_append_of_not_mem hfront, Dialog.lines_decode]
  cases text.toList.splitOn Dialog.lineBreak with
  | nil => simp
  | cons piece pieces =>
    rw [List.map_cons, List.modifyHead_cons, List.forall_mem_cons, List.forall_mem_map,
      List.tail_cons, List.cons_append]
    exact and_iff_right (readLine_comment _)

/-! ## The lines behind a dump -/

/-- **The texts of a dump** are those of the section, and their lines give no instruction exactly
if all of them are silent. -/
theorem exists_texts_of_dumpText {s : ScriptSection} {indices : List Nat} {outs : List String}
    (h : indices.map (dumpText s) = outs.map .ok) :
    ∃ texts : List Bytes, indices.map s.text = texts.map .ok
      ∧ ((∀ line ∈ lines (outs.flatMap String.toList), readLine line = .ok none)
        ↔ ∀ text ∈ texts, IsSilent text) := by
  induction indices generalizing outs with
  | nil =>
    obtain rfl : outs = [] := List.map_eq_nil_iff.mp h.symm
    exact ⟨[], rfl, iff_of_true (List.forall_mem_singleton.mpr rfl)
      (fun _ hmem => absurd hmem List.not_mem_nil)⟩
  | cons index indices ih =>
    cases outs with
    | nil => exact nomatch h
    | cons out outs =>
      rw [List.map_cons, List.map_cons, List.cons.injEq] at h
      obtain ⟨text, htext, hout⟩ := dumpText_eq_ok.mp h.1
      obtain ⟨texts, htexts, hsilent⟩ := ih h.2
      refine ⟨text :: texts, by rw [List.map_cons, List.map_cons, htext, htexts], ?_⟩
      have hlines : lines ((out :: outs).flatMap String.toList)
          = lines (textLines index text).toList ++ lines (outs.flatMap String.toList) := by
        rw [List.flatMap_cons, ← hout, String.toList_append, List.append_assoc, ← lines_append]
        rfl
      rw [hlines, List.forall_mem_append, List.forall_mem_cons, readLine_textLines_iff, hsilent]

/-- What is printed for all texts is an empty line and the lines of the texts. -/
theorem exists_texts_of_dumpTexts {s : ScriptSection} {outs : List String}
    (h : dumpTexts s = outs.map .ok) :
    ∃ (texts : List Bytes) (back : List Char), s.textCount = .ok texts.length
      ∧ (List.range texts.length).map s.text = texts.map .ok
      ∧ outs.flatMap String.toList = '\n' :: back
      ∧ ((∀ line ∈ lines back, readLine line = .ok none) ↔ ∀ text ∈ texts, IsSilent text) := by
  obtain ⟨first, outs, rfl, hfirst, houts⟩ := List.map_eq_cons_iff.mp h.symm
  cases hcount : s.textCount with
  | error e =>
    rw [hcount] at houts
    cases outs <;> exact nomatch houts
  | ok count =>
    rw [hcount] at houts
    obtain ⟨texts, htexts, hsilent⟩ := exists_texts_of_dumpText houts.symm
    obtain rfl : texts.length = count := by
      have hlen := congrArg List.length htexts
      rwa [List.length_map, List.length_map, List.length_range, eq_comm] at hlen
    refine ⟨texts, outs.flatMap String.toList, rfl, htexts, ?_, hsilent⟩
    rw [List.flatMap_cons, Except.ok.inj hfirst]
    rfl

/-- **A dump with texts is the dump without them**, and what is printed for the texts. -/
theorem exists_dumpTexts_of_dump {file : FieldFile} {entity : Option Nat} {rawJumps : Bool}
    (hstatus : (dumpOutcome ⟨entity, rawJumps, true⟩ file).status = 0) :
    ∃ (s : ScriptSection) (outs : List String), ScriptSection.parse file.scripts = .ok s
      ∧ dumpTexts s = outs.map .ok
      ∧ (dumpOutcome ⟨entity, rawJumps, false⟩ file).status = 0
      ∧ (dumpOutcome ⟨entity, rawJumps, true⟩ file).stdout.toList
        = (dumpOutcome ⟨entity, rawJumps, false⟩ file).stdout.toList
          ++ outs.flatMap String.toList := by
  obtain ⟨outs, houts, hstdout⟩ := exists_texts_of_status hstatus
  cases hparse : ScriptSection.parse file.scripts with
  | error e =>
    unfold dump at houts
    rw [hparse] at houts
    cases outs <;> exact nomatch houts
  | ok s =>
    have hdump : dump false ⟨entity, rawJumps, true⟩ file
        = dump false ⟨entity, rawJumps, false⟩ file ++ dumpTexts s := by
      unfold dump
      rw [hparse]
      exact (congrArg (· ++ dumpTexts s) (List.append_nil _)).symm
    rw [hdump] at houts
    obtain ⟨front, behind, rfl, hfront, hbehind⟩ := List.append_eq_map_iff.mp houts
    obtain ⟨stdout, hprinted, hplain⟩ := printedOnto_map_ok "" front
    have hoverall : dumpOutcome ⟨entity, rawJumps, false⟩ file = ⟨0, stdout, ""⟩ := by
      unfold dumpOutcome printed
      rw [← hfront, hprinted]
      rfl
    refine ⟨s, behind, rfl, hbehind.symm, by rw [hoverall], ?_⟩
    rw [hoverall, hplain]
    exact hstdout.trans List.flatMap_append

/-- **Texts behind a listing are comments** as long as they are silent. If a field can be dumped
with its dialog texts, in either form of its jumps and for all entities or one, then it can be
dumped without them, and both listings are read alike exactly if the one without texts is in
error already or every text is silent. Texts without a line break are. -/
theorem parse_dumped_texts {file : FieldFile} {entity : Option Nat} {rawJumps : Bool}
    (hstatus : (dumpOutcome ⟨entity, rawJumps, true⟩ file).status = 0) :
    ∃ (s : ScriptSection) (texts : List Bytes),
      ScriptSection.parse file.scripts = .ok s ∧ s.textCount = .ok texts.length
        ∧ (List.range texts.length).map s.text = texts.map .ok
        ∧ (dumpOutcome ⟨entity, rawJumps, false⟩ file).status = 0
        ∧ (Listing.parse (dumpOutcome ⟨entity, rawJumps, true⟩ file).stdout
            = Listing.parse (dumpOutcome ⟨entity, rawJumps, false⟩ file).stdout
          ↔ (∃ e, Listing.parse (dumpOutcome ⟨entity, rawJumps, false⟩ file).stdout = .error e)
            ∨ ∀ text ∈ texts, IsSilent text)
        ∧ ((∀ text ∈ texts, 0xE7 ∉ text.toList) →
          Listing.parse (dumpOutcome ⟨entity, rawJumps, true⟩ file).stdout
            = Listing.parse (dumpOutcome ⟨entity, rawJumps, false⟩ file).stdout) := by
  obtain ⟨s, outs, hparse, houts, hplain, hstdout⟩ := exists_dumpTexts_of_dump hstatus
  obtain ⟨texts, back, hcount, htexts, hback, hsilent⟩ := exists_texts_of_dumpTexts houts
  rw [hback] at hstdout
  have hread := parse_eq_parse_iff hstdout
  rw [hsilent] at hread
  refine ⟨s, texts, hparse, hcount, htexts, hplain, hread, fun hbreaks => hread.mpr (.inr ?_)⟩
  exact fun text hmem => isSilent_of_not_mem (hbreaks text hmem)

/-- A field with an entity that returns at once, and one text. -/
def oneText (codes : List UInt8) : FieldFile where
  scripts := List.toArray <|
    [2, 5, 1, 0, 105, 0, 0, 0, 0, 2] ++ List.replicate 6 0 ++ [97, 98, 0, 0, 0, 0, 0, 0]
      ++ [109, 100, 49, 0, 0, 0, 0, 0] ++ [99, 108, 0, 0, 0, 0, 0, 0]
      ++ (List.replicate 32 [104, 0]).flatten ++ [0x00] ++ ([1, 0, 4, 0] ++ codes ++ [0xFF])
  camera := #[]
  modelLoader := #[]
  palette := #[]
  walkmesh := #[]
  tileMap := #[]
  encounter := #[]
  triggers := #[]
  background := #[]

/-- A text of two lines, the second of which is a space: both listings are read alike. -/
theorem parse_dumped_texts_blankLine :
    (dumpOutcome ⟨none, false, true⟩ (oneText [0x21, 0xE7, 0x00])).status = 0
      ∧ Listing.parse (dumpOutcome ⟨none, false, true⟩ (oneText [0x21, 0xE7, 0x00])).stdout
        = Listing.parse (dumpOutcome ⟨none, false, false⟩ (oneText [0x21, 0xE7, 0x00])).stdout := by
  have hstatus : (dumpOutcome ⟨none, false, true⟩ (oneText [0x21, 0xE7, 0x00])).status = 0 := by
    decide +kernel
  obtain ⟨s, texts, hparse, hcount, htexts, -, hread, -⟩ := parse_dumped_texts hstatus
  have hsection : ((ScriptSection.parse (oneText [0x21, 0xE7, 0x00]).scripts).map fun s =>
        (s.textCount, (List.range 1).map s.text))
      = .ok (.ok 1, [#[0x21, 0xE7, 0x00]].map .ok) := by decide +kernel
  rw [hparse] at hsection
  obtain ⟨hone, htext⟩ := Prod.mk.inj (Except.ok.inj hsection)
  rw [hcount, Except.ok.injEq] at hone
  rw [hone, htext] at htexts
  obtain rfl := List.map_injective_iff.mpr (fun _ _ => Except.ok.inj) htexts
  refine ⟨hstatus, hread.mpr (.inr (List.forall_mem_singleton.mpr ?_))⟩
  intro piece hmem
  obtain rfl := List.mem_singleton.mp hmem
  decide +kernel

/-- **Texts are read as instructions**: the only script returns, and so does the second line of
the text. -/
theorem texts_read_as_instructions :
    (dumpOutcome ⟨none, false, true⟩ (oneText [0x21, 0xE7, 0x32, 0x25, 0x34])).status = 0
      ∧ Listing.parse
          (dumpOutcome ⟨none, false, false⟩ (oneText [0x21, 0xE7, 0x32, 0x25, 0x34])).stdout
        = .ok [.ordinary 0x00 []]
      ∧ Listing.parse
          (dumpOutcome ⟨none, false, true⟩ (oneText [0x21, 0xE7, 0x32, 0x25, 0x34])).stdout
        = .ok [.ordinary 0x00 [], .ordinary 0x00 []] := by
  decide +kernel

end FieldMap.CommandLine
