/-!
# Blanks, words and lines

The pieces that a listing is read in: lines end at a line feed, and the
words of a line are the runs of characters between blanks. A character is
blank when it has the `White_Space` property, which twenty-five
characters have.

Text is handled here as a list of characters, so that every function is a
recursion over the data.
-/

namespace FieldMap.Text

/-- **The `White_Space` property**: the controls from tab to carriage
return, the space, and the spaces and separators beyond ASCII. -/
def isBlank (c : Char) : Bool :=
  ('\t' ≤ c && c ≤ '\r') || c == ' ' || c == '\u0085' || c == '\u00a0' || c == '\u1680' ||
    ('\u2000' ≤ c && c ≤ '\u200a') || c == '\u2028' || c == '\u2029' || c == '\u202f' ||
    c == '\u205f' || c == '\u3000'

/-- The text without the blanks at its two ends. -/
def trim (cs : List Char) : List Char :=
  ((cs.dropWhile isBlank).reverse.dropWhile isBlank).reverse

/-- **The words of a text**: its maximal runs of characters that are not
blank, in order. -/
def words : List Char → List (List Char)
  | [] => []
  | c :: cs =>
    if isBlank c then words cs
    else if (cs.head?.map isBlank).getD true then [c] :: words cs
    else match words cs with
      | [] => [[c]]
      | w :: ws => (c :: w) :: ws

/-- The lines of a text that continues a `line` already begun, behind the
lines that are `done`; both are kept in reverse. -/
def linesAfter (done : List (List Char)) (line : List Char) : List Char → List (List Char)
  | [] => (line.reverse :: done).reverse
  | c :: cs =>
    if c = '\n' then linesAfter (line.reverse :: done) [] cs
    else linesAfter done (c :: line) cs

/-- **The lines of a text**: the pieces between its line feeds, of which
there is one more than there are line feeds. -/
def lines (cs : List Char) : List (List Char) := linesAfter [] [] cs

theorem linesAfter_eq (done : List (List Char)) (line cs : List Char) :
    linesAfter done line cs = done.reverse ++ linesAfter [] line cs := by
  induction cs generalizing done line with
  | nil => simp [linesAfter]
  | cons c cs ih =>
    by_cases h : c = '\n'
    · simp only [linesAfter, h, if_true]
      rw [ih (line.reverse :: done), ih [line.reverse]]
      simp
    · simp only [linesAfter, h, if_false]
      exact ih done (c :: line)

/-- Cutting a text at a line feed cuts its lines there. -/
theorem lines_append (a b : List Char) : lines (a ++ '\n' :: b) = lines a ++ lines b := by
  suffices h : ∀ line, linesAfter [] line (a ++ '\n' :: b) = linesAfter [] line a ++ lines b from h []
  induction a with
  | nil =>
    intro line
    simp only [List.nil_append, linesAfter, if_true]
    rw [linesAfter_eq]
    simp [lines]
  | cons c a ih =>
    intro line
    by_cases h : c = '\n'
    · simp only [List.cons_append, linesAfter, h, if_true]
      rw [linesAfter_eq, ih, linesAfter_eq [line.reverse] [] a]
      simp
    · simp only [List.cons_append, linesAfter, h, if_false]
      exact ih (c :: line)

end FieldMap.Text
