import Mathlib.Data.List.ReduceOption
import FieldMap.Proofs.Printable

/-!
# Listings line by line

No line of a listing depends on another one, so that a listing is read if each of its
lines is, and gives the instructions that these give (`readLines_eq_ok`).

`Gives` says of a text that it consists of complete lines, each with its line feed, and
which script they give. Such texts can be put one behind the other, and so can their
scripts (`Gives.append`); comments and blank lines give the empty script. That every
line is complete is what keeps the last line of one text apart from the first of the
next.
-/

namespace FieldMap.Listing

open FieldMap.Text

/-- **Lines are read one by one**, and those that give an instruction give it behind
the ones that are done. -/
theorem readLines_eq_ok {done script : Script} {number : Nat} {texts : List (List Char)} :
    readLines done number texts = .ok script
      ↔ ∃ read, texts.mapM readLine = .ok read ∧ script = done.reverse ++ read.reduceOption := by
  induction texts generalizing done number with
  | nil =>
    rw [readLines, Except.ok.injEq, eq_comm]
    simp [List.reduceOption_nil]
  | cons line texts ih =>
    rw [readLines, List.mapM_cons]
    cases readLine line with
    | error fault => exact iff_of_false (fun h => nomatch h) (fun ⟨_, h, _⟩ => nomatch h)
    | ok result =>
      simp only [Except.ok_bind, Except.bind_eq_ok, Except.pure_eq_ok, Except.ok.injEq]
      cases result with
      | none =>
        dsimp only
        rw [ih]
        constructor
        · rintro ⟨read, hread, rfl⟩
          exact ⟨none :: read, ⟨read, hread, rfl⟩, by rw [List.reduceOption_cons_of_none]⟩
        · rintro ⟨_, ⟨read, hread, rfl⟩, rfl⟩
          exact ⟨read, hread, by rw [List.reduceOption_cons_of_none]⟩
      | some instruction =>
        dsimp only
        rw [ih]
        simp only [List.reverse_cons, List.append_assoc, List.singleton_append]
        constructor
        · rintro ⟨read, hread, rfl⟩
          exact ⟨some instruction :: read, ⟨read, hread, rfl⟩, by rw [List.reduceOption_cons_of_some]⟩
        · rintro ⟨_, ⟨read, hread, rfl⟩, rfl⟩
          exact ⟨read, hread, by rw [List.reduceOption_cons_of_some]⟩

/-- A line that opens with a number sign is a comment. -/
theorem readLine_comment (line : List Char) : readLine ('#' :: line) = .ok none := by
  obtain ⟨rest, htrim⟩ := exists_trim_cons (c := '#') (by decide) line
  unfold readLine
  rw [htrim]
  rfl

/-- **A text of complete lines that give a script.** -/
def Gives (text : List Char) (script : Script) : Prop :=
  ∃ (texts : List (List Char)) (read : List (Option Instruction)),
    text = texts.flatMap (· ++ ['\n']) ∧ (∀ line ∈ texts, '\n' ∉ line)
      ∧ texts.mapM readLine = .ok read ∧ script = read.reduceOption

namespace Gives

variable {a b line : List Char} {front back : Script}

theorem nil : Gives [] [] := ⟨[], [], rfl, fun _ hmem => absurd hmem List.not_mem_nil, rfl, rfl⟩

/-- A single line gives what it is read as. -/
theorem of_readLine {read : Option Instruction} (hline : '\n' ∉ line)
    (h : readLine line = .ok read) : Gives (line ++ ['\n']) read.toList := by
  refine ⟨[line], [read], List.flatMap_singleton .. |>.symm, List.forall_mem_singleton.mpr hline,
    ?_, ?_⟩
  · rw [List.mapM_cons, h]
    rfl
  · cases read <;> rfl

/-- **Texts of complete lines** can be put one behind the other. -/
theorem append (ha : Gives a front) (hb : Gives b back) : Gives (a ++ b) (front ++ back) := by
  obtain ⟨atexts, aread, rfl, halines, haread, rfl⟩ := ha
  obtain ⟨btexts, bread, rfl, hblines, hbread, rfl⟩ := hb
  refine ⟨atexts ++ btexts, aread ++ bread, List.flatMap_append.symm,
    List.forall_mem_append.mpr ⟨halines, hblines⟩, ?_, (List.reduceOption_append ..).symm⟩
  rw [List.mapM_append, haread, hbread]
  rfl

/-- **A comment gives no instruction**, whatever stands in it. -/
theorem comment (h : '\n' ∉ line) : Gives ('#' :: line ++ ['\n']) [] := by
  have hline : '\n' ∉ '#' :: line := by
    rw [List.mem_cons, not_or]
    exact ⟨by decide, h⟩
  exact of_readLine hline (readLine_comment line)

/-- A blank line gives no instruction. -/
theorem blank : Gives ['\n'] [] := by
  have hread : readLine [] = .ok none := rfl
  exact of_readLine List.not_mem_nil hread

/-- **The listing of a script** gives the script, if it can hold every instruction. -/
theorem listing {script : Script} (h : ∀ instruction ∈ script, instruction.Printable) :
    Gives script.listing.toList script := by
  induction script with
  | nil => exact nil
  | cons instruction rest ih =>
    have htext : (Script.listing (instruction :: rest)).toList
        = (instruction.line.toList ++ ['\n']) ++ (Script.listing rest).toList := by
      unfold Script.listing
      rw [List.map_cons, String.toList_join, List.flatMap_cons, String.toList_append,
        String.toList_join]
      rfl
    rw [htext]
    exact (of_readLine instruction.newline_not_mem_line
      (readLine_of_printable (h instruction List.mem_cons_self))).append
      (ih fun i hi => h i (List.mem_cons_of_mem instruction hi))

/-- **A text of complete lines is read** as the script that its lines give. -/
theorem parse {text : String} {script : Script} (h : Gives text.toList script) :
    Listing.parse text = .ok script := by
  obtain ⟨texts, read, htext, hlines, hread, rfl⟩ := h
  unfold Listing.parse
  rw [htext, lines_flatMap hlines, readLines_eq_ok]
  refine ⟨read ++ [none], ?_, ?_⟩
  · rw [List.mapM_append, hread]
    rfl
  · rw [List.reduceOption_append]
    exact (List.append_nil _).symm

end Gives

end FieldMap.Listing
