import FieldMap.Dialog
import FieldMap.Proofs.Numerals
import FieldMap.Proofs.Words

/-!
# Printed dialog texts

A code of a dialog text is printed as one character or as four, and the printed codes follow
each other without a mark between them. A text can still be told from its printed form, as
long as it does not hold the code that is printed as an opening brace itself. Then a brace
always opens a code in braces, so that the first character tells which form has been printed,
and no printed code is the beginning of another one (`glyph_append_inj`). From this the codes
are found one after the other (`decode_inj`).

A printed text may have several lines. They are the printed pieces between the line breaks of
the text (`lines_decode`), since no other code is printed with a line feed.
-/

namespace FieldMap.Dialog

open FieldMap.Text Listing

/-! ## The forms of a printed code -/

/-- The code of a line break. -/
def lineBreak : UInt8 := 0xE7

/-- The code that is printed as an opening brace. -/
def openingBrace : UInt8 := 0x5B

/-- The two digits of a code that is printed in braces. -/
def bracedDigits (code : UInt8) : List Char :=
  (padLeft 2 '0' ((hexDigits code.toNat).map Char.toUpper)).toList

/-- **The three forms of a printed code**: a character of ASCII, a line feed, and digits in
braces. -/
theorem glyph_cases (code : UInt8) :
    (code ≤ 0x5E ∧ (glyph code).toList = [Char.ofNat (code.toNat + 0x20)])
      ∨ (code = lineBreak ∧ (glyph code).toList = ['\n'])
      ∨ (code ≠ lineBreak ∧ (glyph code).toList = '{' :: (bracedDigits code ++ ['}'])) := by
  unfold glyph
  split_ifs with hplain hbreak
  · exact .inl ⟨hplain, String.toList_singleton _⟩
  · exact .inr (.inl ⟨hbreak, rfl⟩)
  · refine .inr (.inr ⟨hbreak, ?_⟩)
    rw [String.toList_append, String.toList_append]
    rfl

/-- A plain code is printed as the character with a number 32 above its own. -/
theorem toNat_plain {code : UInt8} (h : code ≤ 0x5E) :
    (Char.ofNat (code.toNat + 0x20)).toNat = code.toNat + 0x20 := by
  have hcode : code.toNat ≤ 0x5E := UInt8.le_iff_toNat_le.mp h
  have hvalid : (code.toNat + 0x20).isValidChar := .inl (by omega)
  unfold Char.ofNat
  rw [dif_pos hvalid]
  rfl

theorem plain_ne_newline {code : UInt8} (h : code ≤ 0x5E) :
    Char.ofNat (code.toNat + 0x20) ≠ '\n' := fun heq => by
  have hnat := congrArg Char.toNat heq
  rw [toNat_plain h] at hnat
  have hnewline : '\n'.toNat = 10 := rfl
  omega

theorem plain_ne_brace {code : UInt8} (h : code ≤ 0x5E) (hbrace : code ≠ openingBrace) :
    Char.ofNat (code.toNat + 0x20) ≠ '{' := fun heq => by
  have hnat := congrArg Char.toNat heq
  rw [toNat_plain h] at hnat
  have hopening : '{'.toNat = 0x5B + 0x20 := rfl
  exact hbrace (UInt8.toNat_inj.mp (show code.toNat = 0x5B by omega))

theorem toList_hexId_eq (code : UInt8) :
    (hexId 2 code.toNat).toList = '0' :: 'x' :: bracedDigits code := by
  unfold hexId bracedDigits
  rw [String.toList_append]
  rfl

/-- **Codes are told apart by their digits.** -/
theorem bracedDigits_inj {a b : UInt8} : bracedDigits a = bracedDigits b ↔ a = b := by
  refine ⟨fun h => ?_, congrArg bracedDigits⟩
  have hread : ∀ code : UInt8, readInteger (hexId 2 code.toNat).toList = .ok (code.toNat : Int) :=
    fun code => readInteger_hexId 2 (by have := code.toNat_lt; omega)
  have hnumber := hread a
  rw [toList_hexId_eq, h, ← toList_hexId_eq, hread b, Except.ok.injEq] at hnumber
  exact UInt8.toNat_inj.mp (Int.ofNat_inj.mp hnumber).symm

/-- The digits of a code are digits in base sixteen. -/
theorem exists_of_mem_bracedDigits {code : UInt8} {c : Char} (h : c ∈ bracedDigits code) :
    ∃ digit < 16, c = digit.digitChar.toUpper := by
  unfold bracedDigits padLeft hexDigits at h
  rw [String.toList_append, String.toList_ofList, String.toList_map, String.toList_ofList,
    List.mem_append] at h
  rcases h with h | h
  · exact ⟨0, by decide, List.eq_of_mem_replicate h⟩
  · obtain ⟨d, hd, rfl⟩ := List.mem_map.mp h
    obtain ⟨digit, hdigit, rfl⟩ := exists_of_mem_toDigits (by norm_num) hd
    exact ⟨digit, hdigit, rfl⟩

theorem brace_not_mem_bracedDigits (code : UInt8) : '}' ∉ bracedDigits code := fun h => by
  obtain ⟨digit, hdigit, heq⟩ := exists_of_mem_bracedDigits h
  exact (by decide : ∀ digit < 16, '}' ≠ digit.digitChar.toUpper) digit hdigit heq

theorem newline_not_mem_bracedDigits (code : UInt8) : '\n' ∉ bracedDigits code := fun h => by
  obtain ⟨digit, hdigit, heq⟩ := exists_of_mem_bracedDigits h
  exact (by decide : ∀ digit < 16, '\n' ≠ digit.digitChar.toUpper) digit hdigit heq

/-- Digits end at their closing brace, which is the first one behind them. -/
theorem braced_append_inj {a b : UInt8} {s t : List Char}
    (h : bracedDigits a ++ '}' :: s = bracedDigits b ++ '}' :: t) : a = b ∧ s = t := by
  have hdigits := congrArg (List.splitOn '}') h
  rw [List.splitOn_append_cons_self_of_not_mem (brace_not_mem_bracedDigits a),
    List.splitOn_append_cons_self_of_not_mem (brace_not_mem_bracedDigits b),
    List.cons.injEq, bracedDigits_inj] at hdigits
  obtain ⟨rfl, -⟩ := hdigits
  exact ⟨rfl, List.tail_eq_of_cons_eq (List.append_cancel_left h)⟩

/-! ## Telling texts apart -/

/-- **A printed code is not the beginning of another one.** Where two of them begin a text,
they are the same, unless one is a printed brace. -/
theorem glyph_append_inj {a b : UInt8} (ha : a ≠ openingBrace) (hb : b ≠ openingBrace)
    {s t : List Char} (h : (glyph a).toList ++ s = (glyph b).toList ++ t) : a = b ∧ s = t := by
  rcases glyph_cases a with ⟨hplain, hglyph⟩ | ⟨hbreak, hglyph⟩ | ⟨-, hglyph⟩ <;>
    rcases glyph_cases b with ⟨hplain', hglyph'⟩ | ⟨hbreak', hglyph'⟩ | ⟨-, hglyph'⟩ <;>
    rw [hglyph, hglyph'] at h <;>
    have hfirst := List.head_eq_of_cons_eq h
  · have hnat := congrArg Char.toNat hfirst
    rw [toNat_plain hplain, toNat_plain hplain', Nat.add_right_cancel_iff] at hnat
    exact ⟨UInt8.toNat_inj.mp hnat, List.tail_eq_of_cons_eq h⟩
  · exact absurd hfirst (plain_ne_newline hplain)
  · exact absurd hfirst (plain_ne_brace hplain ha)
  · exact absurd hfirst.symm (plain_ne_newline hplain')
  · exact ⟨hbreak.trans hbreak'.symm, List.tail_eq_of_cons_eq h⟩
  · exact absurd hfirst (by decide)
  · exact absurd hfirst.symm (plain_ne_brace hplain' hb)
  · exact absurd hfirst (by decide)
  · rw [List.cons_append, List.cons_append, List.cons.injEq, List.append_assoc,
      List.append_assoc] at h
    exact braced_append_inj h.2

/-- No code is printed as nothing. -/
theorem glyph_ne_nil (code : UInt8) : (glyph code).toList ≠ [] := by
  rcases glyph_cases code with ⟨-, h⟩ | ⟨-, h⟩ | ⟨-, h⟩ <;> exact h ▸ List.cons_ne_nil _ _

theorem toList_decode (codes : List UInt8) :
    (decode codes).toList = codes.flatMap fun code => (glyph code).toList := by
  unfold decode
  rw [String.toList_join, List.flatMap_map]

theorem toList_decode_cons (code : UInt8) (codes : List UInt8) :
    (decode (code :: codes)).toList = (glyph code).toList ++ (decode codes).toList := by
  rw [toList_decode, toList_decode, List.flatMap_cons]

/-- **Texts are read off from the front** of their printed form. Without a printed brace, a text
is printed as the beginning of another one only if it is the beginning itself. -/
theorem prefix_of_decode {a b : List UInt8} (ha : openingBrace ∉ a) (hb : openingBrace ∉ b)
    (h : (decode a).toList <+: (decode b).toList) : a <+: b := by
  induction a generalizing b with
  | nil => exact List.nil_prefix
  | cons code a ih =>
    obtain ⟨rest, hrest⟩ := h
    rw [toList_decode_cons, List.append_assoc] at hrest
    cases b with
    | nil => exact absurd (List.append_eq_nil_iff.mp hrest).1 (glyph_ne_nil code)
    | cons code' b =>
      obtain ⟨hcode, ha'⟩ := not_or.mp (mt List.mem_cons.mpr ha)
      obtain ⟨hcode', hb'⟩ := not_or.mp (mt List.mem_cons.mpr hb)
      rw [toList_decode_cons] at hrest
      obtain ⟨heq, htail⟩ := glyph_append_inj (Ne.symm hcode) (Ne.symm hcode') hrest
      exact List.cons_prefix_cons.mpr ⟨heq, ih ha' hb' ⟨rest, htail⟩⟩

/-- **Printed texts stay apart.** Of texts without the code that is printed as an opening brace,
two are printed alike only if they are the same. -/
theorem decode_inj {a b : List UInt8} (ha : 0x5B ∉ a) (hb : 0x5B ∉ b) :
    decode a = decode b ↔ a = b := by
  refine ⟨fun h => ?_, congrArg decode⟩
  have hab : a <+: b := prefix_of_decode ha hb (h ▸ List.prefix_rfl)
  have hba : b <+: a := prefix_of_decode hb ha (h ▸ List.prefix_rfl)
  exact hab.eq_of_length_le hba.length_le

/-- A code in braces in front of a closing brace and a letter, or of a letter and a closing
brace. -/
theorem decode_inj_closingBrace :
    (0x5B : UInt8) ∉ [0xEA, 0x5D, 0x25] ∧ (0x5B : UInt8) ∉ [0xEA, 0x25, 0x5D]
      ∧ decode [0xEA, 0x5D, 0x25] = "\x7bEA\x7d\x7dE"
      ∧ decode [0xEA, 0x25, 0x5D] = "\x7bEA\x7dE\x7d"
      ∧ decode [0xEA, 0x5D, 0x25] ≠ decode [0xEA, 0x25, 0x5D] := by
  refine ⟨by decide, by decide, by decide +kernel, by decide +kernel, fun h => ?_⟩
  exact absurd ((decode_inj (by decide) (by decide)).mp h) (by decide)

/-- A printed brace opens what looks like a code in braces. -/
example : decode [0x5B, 0x25, 0x21, 0x5D] = decode [0xEA] := by decide +kernel

/-! ## The lines of a printed text -/

/-- **Only a line break is printed with a line feed.** -/
theorem newline_mem_glyph {code : UInt8} : '\n' ∈ (glyph code).toList ↔ code = lineBreak := by
  rcases glyph_cases code with ⟨hplain, h⟩ | ⟨hbreak, h⟩ | ⟨hbreak, h⟩ <;> rw [h]
  · rw [List.mem_singleton]
    refine iff_of_false (Ne.symm (plain_ne_newline hplain)) (fun heq => ?_)
    rw [heq] at hplain
    exact absurd hplain (by decide)
  · exact iff_of_true (List.mem_singleton_self _) hbreak
  · refine iff_of_false (fun hmem => ?_) hbreak
    rw [List.mem_cons, List.mem_append, List.mem_singleton] at hmem
    rcases hmem with heq | hmem | heq
    · exact absurd heq (by decide)
    · exact newline_not_mem_bracedDigits code hmem
    · exact absurd heq (by decide)

/-- **The lines of a printed text** are the printed pieces between its line breaks. -/
theorem lines_decode (codes : List UInt8) :
    lines (decode codes).toList
      = (codes.splitOn lineBreak).map fun piece => (decode piece).toList := by
  induction codes with
  | nil => rfl
  | cons code codes ih =>
    rw [toList_decode_cons, List.splitOn_cons_eq_if_modifyHead]
    simp only [beq_iff_eq]
    split_ifs with h
    · rw [h, List.map_cons, ← ih]
      exact lines_append [] _
    · rw [lines_append_of_not_mem (mt newline_mem_glyph.mp h), ih]
      cases codes.splitOn lineBreak with
      | nil => rfl
      | cons piece pieces =>
        rw [List.map_cons, List.modifyHead_cons, List.modifyHead_cons, List.map_cons,
          toList_decode_cons]

end FieldMap.Dialog
