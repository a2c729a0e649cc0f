import FieldMap.Listing.Parser
import FieldMap.Proofs.Words
import FieldMap.Proofs.Readers

/-!
# Listings one behind the other

A listing that is put behind another one is read as if it stood alone. What was read in
front of it does not matter, since the reader only collects the instructions, and the number
of a line is only carried into its error. So the two scripts come one behind the other, and
the error of the second listing names a line that lies behind all lines of the first
(`parse_joined`).

A listing may be cut at any line feed in this way. The line feed ends the line in front of
it, and if nothing or only a carriage return stands there, then this line is blank.
-/

namespace FieldMap.Listing

open FieldMap.Text

/-- The error as seen from `count` lines earlier. -/
def ListingError.shift (count : Nat) (e : ListingError) : ListingError :=
  { e with line := e.line + count }

/-- The instructions that are done stand in front of those that are read. -/
theorem readLines_done (done : Script) (number : Nat) (texts : List (List Char)) :
    readLines done number texts = (readLines [] number texts).map (done.reverse ++ ·) := by
  induction texts generalizing done number with
  | nil => exact congrArg Except.ok (List.append_nil _).symm
  | cons line texts ih =>
    rw [readLines, readLines]
    cases readLine line with
    | error fault => rfl
    | ok read =>
      cases read with
      | none => exact ih done (number + 1)
      | some instruction =>
        dsimp only
        rw [ih (instruction :: done), ih [instruction], List.reverse_cons]
        cases readLines [] (number + 1) texts with
        | error e => rfl
        | ok script => exact congrArg Except.ok (List.append_assoc ..)

/-- The number of the first line is only carried into an error. -/
theorem readLines_shift (count : Nat) (done : Script) (number : Nat) (texts : List (List Char)) :
    readLines done (number + count) texts
      = (readLines done number texts).mapError (ListingError.shift count) := by
  induction texts generalizing done number with
  | nil => rfl
  | cons line texts ih =>
    rw [readLines, readLines, Nat.add_right_comm]
    cases readLine line with
    | error fault => rfl
    | ok read =>
      cases read with
      | none => exact ih done (number + 1)
      | some instruction => exact ih (instruction :: done) (number + 1)

/-- **Lines are read one behind the other**: the later ones go on where the earlier ones
stopped. -/
theorem readLines_append (done : Script) (number : Nat) (front back : List (List Char)) :
    readLines done number (front ++ back)
      = readLines done number front >>= fun script =>
        readLines script.reverse (number + front.length) back := by
  induction front generalizing done number with
  | nil =>
    show _ = readLines done.reverse.reverse number back
    rw [List.reverse_reverse, List.nil_append]
  | cons line front ih =>
    rw [List.cons_append, readLines, readLines, List.length_cons, Nat.add_comm front.length 1,
      ← Nat.add_assoc]
    cases readLine line with
    | error fault => rfl
    | ok read =>
      cases read with
      | none => exact ih done (number + 1)
      | some instruction => exact ih (instruction :: done) (number + 1)

/-- **Lines that give nothing** are those behind which no more instructions are done. -/
theorem readLines_eq_done {done : Script} {number : Nat} {texts : List (List Char)} :
    readLines done number texts = .ok done.reverse ↔ ∀ line ∈ texts, readLine line = .ok none := by
  induction texts generalizing number with
  | nil => exact iff_of_true rfl (fun _ hmem => absurd hmem List.not_mem_nil)
  | cons line texts ih =>
    rw [readLines, List.forall_mem_cons]
    cases readLine line with
    | error fault => exact iff_of_false (fun h => nomatch h) (fun h => nomatch h.1)
    | ok read =>
      cases read with
      | none => exact ih.trans (and_iff_right rfl).symm
      | some instruction =>
        refine iff_of_false (fun h => ?_) (fun h => nomatch h.1)
        -- the instruction stays in front of whatever the other lines give
        dsimp only at h
        rw [readLines_done, Except.map_eq_ok, List.reverse_cons] at h
        obtain ⟨script, -, hscript⟩ := h
        rw [List.append_assoc, List.append_right_eq_self] at hscript
        exact nomatch hscript

/-- **More lines behind a listing** change what is read only if there was no error, and one of
them gives an instruction or an error. -/
theorem parse_eq_parse_iff {a joined : String} {back : List Char}
    (h : joined.toList = a.toList ++ '\n' :: back) :
    parse joined = parse a
      ↔ (∃ e, parse a = .error e) ∨ ∀ line ∈ lines back, readLine line = .ok none := by
  have hjoined : parse joined = parse a >>= fun script =>
      readLines script.reverse (1 + (lines a.toList).length) (lines back) := by
    unfold parse
    rw [h, lines_append, readLines_append]
  rw [hjoined]
  cases parse a with
  | error e => exact iff_of_true rfl (.inl ⟨e, rfl⟩)
  | ok script =>
    have hdone : readLines script.reverse (1 + (lines a.toList).length) (lines back)
          = .ok script.reverse.reverse ↔ _ := readLines_eq_done
    rw [List.reverse_reverse] at hdone
    rw [Except.ok_bind, hdone]
    exact (or_iff_right (fun ⟨_, he⟩ => nomatch he)).symm

/-- **A listing is read line by line.** Of two texts with a line feed between them, an error
in the first decides. If the first gives a script, then the second is read as if it stood
alone: its script comes behind that of the first, and its error behind the lines of the
first, of which there is one more than there are line feeds in it. -/
theorem parse_joined (a b : String) :
    parse (a ++ "\n" ++ b) = match parse a, parse b with
      | .error e, _ => .error e
      | .ok front, .ok back => .ok (front ++ back)
      | .ok _, .error e => .error ⟨e.line + (a.toList.count '\n' + 1), e.fault⟩ := by
  have htext : (a ++ "\n" ++ b).toList = a.toList ++ '\n' :: b.toList := by
    rw [String.toList_append, String.toList_append, List.append_assoc]
    rfl
  have hsecond : ∀ front : Script, readLines front.reverse (1 + (lines a.toList).length)
        (lines b.toList)
      = ((parse b).map (front ++ ·)).mapError (.shift (a.toList.count '\n' + 1)) := fun front => by
    rw [readLines_shift, readLines_done, List.reverse_reverse, length_lines]
    rfl
  have hjoined : parse (a ++ "\n" ++ b) = parse a >>= fun front =>
      readLines front.reverse (1 + (lines a.toList).length) (lines b.toList) := by
    show readLines [] 1 (lines (a ++ "\n" ++ b).toList) = _
    rw [htext, lines_append, readLines_append]
    rfl
  rw [hjoined]
  cases parse a with
  | error e => rfl
  | ok front =>
    rw [Except.ok_bind, hsecond]
    cases parse b with
    | error e => rfl
    | ok back => rfl

/-- At the cut stands a carriage return, so that an empty line ends the first text. The fault
is on the third line of the second, and comes to be on the fifth of both. -/
theorem parse_joined_carriageReturn :
    parse "LABEL 1\n\r" = .ok [.label 1]
      ∧ parse "// note\r\n\nlabel 2 3" = .error ⟨3, .argumentCount "LABEL" 1 2⟩
      ∧ parse ("LABEL 1\n\r" ++ "\n" ++ "// note\r\n\nlabel 2 3")
        = .error ⟨5, .argumentCount "LABEL" 1 2⟩ := by
  have hfirst : parse "LABEL 1\n\r" = .ok [.label 1] := by decide +kernel
  have hsecond : parse "// note\r\n\nlabel 2 3" = .error ⟨3, .argumentCount "LABEL" 1 2⟩ := by
    decide +kernel
  refine ⟨hfirst, hsecond, (parse_joined _ _).trans ?_⟩
  rw [hfirst, hsecond]
  decide +kernel

end FieldMap.Listing
