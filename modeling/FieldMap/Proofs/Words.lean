import Mathlib.Data.List.DropRight
import Mathlib.Tactic
import FieldMap.Text.Blank

/-!
# Texts that are put together from words

A line that is put together from words, with a space in front of each but the
first, is cut into these words again (`words_joinWords`), and trimming leaves
it as it is. A text that is put together from lines, each with a line feed
behind it, is cut into these lines, and an empty line remains
(`lines_flatMap`). What this takes is that no word holds a blank and no word
is empty; since a line feed is a blank, no word is cut by the end of a line
either.
-/

namespace FieldMap.Text

/-! ## Words -/

/-- **A word**: characters of which none is a blank, and at least one. -/
structure IsWord (w : List Char) : Prop where
  ne_nil : w ≠ []
  isBlank : ∀ c ∈ w, isBlank c = false

theorem isWord_iff {w : List Char} : IsWord w ↔ w ≠ [] ∧ w.all (fun c => !Text.isBlank c) = true := by
  rw [List.all_eq_true]
  simp only [Bool.not_eq_true']
  exact ⟨fun h => ⟨h.ne_nil, h.isBlank⟩, fun h => ⟨h.1, h.2⟩⟩

instance : DecidablePred IsWord := fun _ => decidable_of_iff _ isWord_iff.symm

/-- **A line of words**: the first one, and a space in front of every
other. -/
def joinWords (first : List Char) (rest : List (List Char)) : List Char :=
  first ++ rest.flatMap (' ' :: ·)

variable {first w : List Char} {rest : List (List Char)}

theorem joinWords_nil (first : List Char) : joinWords first [] = first := List.append_nil first

theorem joinWords_cons (first w : List Char) (rest : List (List Char)) :
    joinWords first (w :: rest) = first ++ ' ' :: joinWords w rest := rfl

/-- A word ends at a blank, or at the end of the text. -/
theorem words_append (hw : IsWord w) {rest : List Char}
    (hrest : (rest.head?.map isBlank).getD true = true) : words (w ++ rest) = w :: words rest := by
  obtain ⟨hne, hblank⟩ := hw
  induction w with
  | nil => exact absurd rfl hne
  | cons c w ih =>
    have hc := hblank c List.mem_cons_self
    rw [List.cons_append, words, if_neg (Bool.eq_false_iff.mp hc)]
    cases w with
    | nil => exact if_pos hrest
    | cons d w =>
      have hd := hblank d (List.mem_cons_of_mem c List.mem_cons_self)
      rw [ih (List.cons_ne_nil d w) (fun x hx => hblank x (List.mem_cons_of_mem c hx))]
      exact if_neg (Bool.eq_false_iff.mp hd)

/-- **The words of a line** that is put together from words. -/
theorem words_joinWords (hfirst : IsWord first) (hrest : ∀ w ∈ rest, IsWord w) :
    words (joinWords first rest) = first :: rest := by
  induction rest generalizing first with
  | nil =>
    have hend : words (first ++ []) = first :: words [] := words_append hfirst rfl
    rw [List.append_nil] at hend
    rw [joinWords_nil, hend]
    rfl
  | cons w rest ih =>
    have hw := hrest w List.mem_cons_self
    rw [joinWords_cons, words_append hfirst rfl]
    exact congrArg (first :: ·) (ih hw (fun v hv => hrest v (List.mem_cons_of_mem w hv)))

/-! ## The ends of a line -/

/-- A line of words ends with a word. -/
theorem exists_joinWords_eq (hfirst : IsWord first) (hrest : ∀ w ∈ rest, IsWord w) :
    ∃ front w, IsWord w ∧ joinWords first rest = front ++ w := by
  induction rest generalizing first with
  | nil => exact ⟨[], first, hfirst, joinWords_nil first⟩
  | cons w rest ih =>
    obtain ⟨front, last, hlast, hline⟩ :=
      ih (hrest w List.mem_cons_self) (fun v hv => hrest v (List.mem_cons_of_mem w hv))
    refine ⟨first ++ ' ' :: front, last, hlast, ?_⟩
    rw [joinWords_cons, hline, List.append_assoc, List.cons_append]

/-- **Trimming leaves a text as it is** if no blank stands at its ends. -/
theorem trim_eq_self {cs : List Char} (hfirst : ∀ c ∈ cs.head?, isBlank c = false)
    (hlast : ∀ c ∈ cs.getLast?, isBlank c = false) : trim cs = cs := by
  have hfront : cs.dropWhile isBlank = cs := by
    cases cs with
    | nil => rfl
    | cons c cs => exact List.dropWhile_cons_of_neg (Bool.eq_false_iff.mp (hfirst c rfl))
  have hback : cs.rdropWhile isBlank = cs := List.rdropWhile_eq_self_iff.mpr fun hne =>
    Bool.eq_false_iff.mp (hlast _ (List.getLast?_eq_getLast_of_ne_nil hne))
  unfold trim
  rw [hfront]
  exact hback

/-- Trimming leaves a line of words as it is. -/
theorem trim_joinWords (hfirst : IsWord first) (hrest : ∀ w ∈ rest, IsWord w) :
    trim (joinWords first rest) = joinWords first rest := by
  refine trim_eq_self (fun c hc => ?_) (fun c hc => ?_)
  · unfold joinWords at hc
    rw [List.head?_append_of_ne_nil _ hfirst.ne_nil] at hc
    exact hfirst.isBlank c (List.mem_of_mem_head? hc)
  · obtain ⟨front, w, hw, hline⟩ := exists_joinWords_eq hfirst hrest
    rw [hline, List.getLast?_append_of_ne_nil front hw.ne_nil] at hc
    exact hw.isBlank c (List.mem_of_mem_getLast? hc)

/-- A text that starts with no blank keeps its first character. -/
theorem exists_trim_cons {c : Char} (h : isBlank c = false) (cs : List Char) :
    ∃ rest, trim (c :: cs) = c :: rest := by
  have hfront : (c :: cs).dropWhile isBlank = c :: cs :=
    List.dropWhile_cons_of_neg (Bool.eq_false_iff.mp h)
  have htrim : trim (c :: cs) = (c :: cs).rdropWhile isBlank := by
    unfold trim
    rw [hfront]
    rfl
  have hne : (c :: cs).rdropWhile isBlank ≠ [] := fun hnil =>
    Bool.eq_false_iff.mp h (List.rdropWhile_eq_nil_iff.mp hnil c List.mem_cons_self)
  obtain ⟨d, rest, hrest⟩ := List.exists_cons_of_ne_nil hne
  obtain ⟨back, hback⟩ := List.rdropWhile_prefix (p := isBlank) (c :: cs)
  rw [hrest, List.cons_append, List.cons.injEq] at hback
  exact ⟨rest, by rw [htrim, hrest, hback.1]⟩

/-! ## Lines -/

/-- Cutting a text into its lines is splitting it at its line feeds. -/
theorem lines_eq_splitOn (cs : List Char) : lines cs = cs.splitOn '\n' := by
  have hbegun : ∀ line, linesAfter [] line cs = cs.splitOnPPrepend (· == '\n') line := by
    induction cs with
    | nil => exact fun _ => rfl
    | cons c cs ih =>
      intro line
      rw [linesAfter, linesAfter_eq, ih, ih, List.splitOnPPrepend_cons_eq_if]
      simp only [beq_iff_eq]
      rfl
  exact hbegun []

theorem lines_cons (c : Char) (cs : List Char) :
    lines (c :: cs) = if c = '\n' then [] :: lines cs else (lines cs).modifyHead (c :: ·) := by
  simp only [lines_eq_splitOn, List.splitOn_cons_eq_if_modifyHead, beq_iff_eq]

theorem lines_of_not_mem {line : List Char} (h : '\n' ∉ line) : lines line = [line] := by
  rw [lines_eq_splitOn, List.splitOn_eq_singleton h]

/-- What stands in front of a text without a line feed belongs to the first line. -/
theorem lines_append_of_not_mem {front : List Char} (h : '\n' ∉ front) (cs : List Char) :
    lines (front ++ cs) = (lines cs).modifyHead (front ++ ·) := by
  induction front with
  | nil => exact (congrFun List.modifyHead_id (lines cs)).symm
  | cons c front ih =>
    obtain ⟨hc, hfront⟩ := not_or.mp (mt List.mem_cons.mpr h)
    rw [List.cons_append, lines_cons, if_neg (Ne.symm hc), ih hfront, List.modifyHead_modifyHead]
    rfl

/-- **Texts that end with a line feed each** have the lines of all, and an empty line
remains. -/
theorem lines_flatMap_append (texts : List (List Char)) :
    lines (texts.flatMap (· ++ ['\n'])) = texts.flatMap lines ++ [[]] := by
  induction texts with
  | nil => rfl
  | cons text texts ih =>
    rw [List.flatMap_cons, List.append_assoc, List.singleton_append, lines_append, ih,
      List.flatMap_cons, List.append_assoc]

/-- **The lines of a text** that is put together from lines. -/
theorem lines_flatMap {texts : List (List Char)} (h : ∀ line ∈ texts, '\n' ∉ line) :
    lines (texts.flatMap (· ++ ['\n'])) = texts ++ [[]] := by
  rw [lines_flatMap_append, List.append_left_inj]
  induction texts with
  | nil => rfl
  | cons line texts ih =>
    rw [List.flatMap_cons, lines_of_not_mem (h line List.mem_cons_self),
      ih (fun l hl => h l (List.mem_cons_of_mem line hl))]
    rfl

/-- **A text has one line more** than it has line feeds. -/
theorem length_lines (cs : List Char) : (lines cs).length = cs.count '\n' + 1 := by
  induction cs with
  | nil => rfl
  | cons c cs ih =>
    rw [lines_cons]
    split_ifs with h
    · rw [List.length_cons, ih, h, List.count_cons_self]
    · rw [List.length_modifyHead, ih, List.count_cons_of_ne h]

/-- A line of words has no line feed. -/
theorem newline_not_mem_joinWords (hfirst : IsWord first) (hrest : ∀ w ∈ rest, IsWord w) :
    '\n' ∉ joinWords first rest := by
  have hword : ∀ w, IsWord w → '\n' ∉ w := fun w hw hmem =>
    absurd (hw.isBlank '\n' hmem) (by decide)
  unfold joinWords
  rw [List.mem_append, List.mem_flatMap, not_or]
  refine ⟨hword first hfirst, ?_⟩
  rintro ⟨w, hw, hmem⟩
  rcases List.mem_cons.mp hmem with heq | hmem
  · exact absurd heq (by decide)
  · exact hword w (hrest w hw) hmem

end FieldMap.Text
