import Mathlib.Data.List.DropRight
import Mathlib.Tactic
import FieldMap.Listing.Basic
import FieldMap.Text.Blank
import FieldMap.Proofs.Readers

/-!
# Numbers that are written can be read

A listing holds numbers in two forms, the decimal form of an operand and the
form in base sixteen of a sub-instruction. The reader accepts more than is
ever written, such as signs behind the mark of a base or commas behind the
number, and what has to be shown is that none of these readings applies to a
number that was written.

Both forms come down to the digits of a natural number, one after the other
from the highest on, of which the reader makes the number again or finds it
too large (`readDigits_toDigits`).
-/

namespace FieldMap.Listing

open FieldMap.Text

/-! ## Digits -/

section Digits

variable {base limit n : Nat} {overflow : IntegerFault} {write : Char → Char}

/-- Reading goes on where it stopped. -/
theorem readDigits_append (n : Nat) (front back : List Char) :
    readDigits base limit overflow n (front ++ back)
      = readDigits base limit overflow n front >>= fun m =>
        readDigits base limit overflow m back := by
  induction front generalizing n with
  | nil => rfl
  | cons c front ih =>
    rw [List.cons_append, readDigits, readDigits]
    cases digitValue? base c with
    | none => rfl
    | some digit =>
      dsimp only
      split_ifs
      · exact ih _
      · rfl

/-- The characters of a number are digits of its base. -/
theorem exists_of_mem_toDigits {c : Char} (hbase : 1 < base) (h : c ∈ Nat.toDigits base n) :
    ∃ digit < base, c = digit.digitChar := by
  induction n using Nat.base_induction base hbase with
  | single m hm =>
    rw [Nat.toDigits_of_lt_base hm, List.mem_singleton] at h
    exact ⟨m, hm, h⟩
  | digit m k hk hm ih =>
    rw [← Nat.toDigits_append_toDigits hbase hm hk, Nat.toDigits_of_lt_base hk, List.mem_append,
      List.mem_singleton] at h
    rcases h with h | h
    · exact ih h
    · exact ⟨k, hk, h⟩

/-- **The digits of a number are read as the number**, or the number passes the
limit. How the digits are written does not matter, as long as each of them
keeps its value. -/
theorem readDigits_toDigits (hbase : 1 < base)
    (hwrite : ∀ digit < base, digitValue? base (write digit.digitChar) = some digit) (n : Nat) :
    readDigits base limit overflow 0 ((Nat.toDigits base n).map write)
      = if n ≤ limit then .ok n else .error overflow := by
  have hdigit : ∀ m k, k < base → readDigits base limit overflow m [write k.digitChar]
      = if base * m + k ≤ limit then .ok (base * m + k) else .error overflow := fun m k hk => by
    rw [readDigits, hwrite k hk, Nat.mul_comm base m]
    rfl
  induction n using Nat.base_induction base hbase with
  | single m hm =>
    rw [Nat.toDigits_of_lt_base hm]
    exact (hdigit 0 m hm).trans (by rw [Nat.mul_zero, Nat.zero_add])
  | digit m k hk hm ih =>
    have hle : m ≤ base * m + k := Nat.le_add_right_of_le (Nat.le_mul_of_pos_left m (by omega))
    rw [← Nat.toDigits_append_toDigits hbase hm hk, Nat.toDigits_of_lt_base hk, List.map_append,
      readDigits_append, ih]
    split_ifs with hlimit hnext hnext
    · exact (hdigit m k hk).trans (if_pos hnext)
    · exact (hdigit m k hk).trans (if_neg hnext)
    · exact absurd (hle.trans hnext) hlimit
    · rfl

/-- Zeros in front do not count. -/
theorem readDigits_replicate_zero (count : Nat) (cs : List Char) :
    readDigits 16 limit overflow 0 (List.replicate count '0' ++ cs)
      = readDigits 16 limit overflow 0 cs := by
  induction count with
  | zero => rfl
  | succ count ih =>
    rw [List.replicate_succ, List.cons_append, readDigits]
    show (if 0 ≤ limit then _ else _) = _
    rw [if_pos (Nat.zero_le limit)]
    exact ih

end Digits

theorem digitValue?_decimal : ∀ digit < 10, digitValue? 10 (id digit.digitChar) = some digit := by
  decide

theorem digitValue?_hexadecimal :
    ∀ digit < 16, digitValue? 16 digit.digitChar.toUpper = some digit := by
  decide

/-- A character that is neither a blank nor a sign, a comma or the mark of a
base. -/
def IsPlain (c : Char) : Prop := isBlank c = false ∧ c ∉ ['+', '-', ',', 'x', 'X']

instance : DecidablePred IsPlain := fun _ => inferInstanceAs (Decidable (_ ∧ _))

theorem isPlain_digit :
    ∀ digit < 16, IsPlain digit.digitChar ∧ IsPlain digit.digitChar.toUpper := by
  decide

/-! ## Written numbers -/

theorem isPlain_of_mem_toDigits {n : Nat} {c : Char} (h : c ∈ Nat.toDigits 10 n) : IsPlain c := by
  obtain ⟨digit, hdigit, rfl⟩ := exists_of_mem_toDigits (by norm_num) h
  exact (isPlain_digit digit (by omega)).1

theorem isPlain_of_mem_hexDigits {count n : Nat} {c : Char}
    (h : c ∈ List.replicate count '0' ++ (Nat.toDigits 16 n).map Char.toUpper) : IsPlain c := by
  rcases List.mem_append.mp h with h | h
  · rw [List.eq_of_mem_replicate h]
    decide
  · obtain ⟨d, hd, rfl⟩ := List.mem_map.mp h
    obtain ⟨digit, hdigit, rfl⟩ := exists_of_mem_toDigits (by norm_num) hd
    exact (isPlain_digit digit hdigit).2

theorem dropCommas_of_not_mem {token : List Char} (h : ',' ∉ token) : dropCommas token = token := by
  refine List.rdropWhile_eq_self_iff.mpr (fun hne hcomma => h ?_)
  rw [← beq_iff_eq.mp hcomma]
  exact List.getLast_mem hne

theorem readInteger_of_minus {cs : List Char} (hcomma : ',' ∉ '-' :: cs) :
    readInteger ('-' :: cs)
      = ((readUnsigned cs).map Int.neg).mapError (.badInteger (String.ofList ('-' :: cs))) := by
  unfold readInteger
  rw [dropCommas_of_not_mem hcomma]
  rfl

theorem readInteger_of_not_mem {token : List Char} (hcomma : ',' ∉ token) (hminus : '-' ∉ token) :
    readInteger token = (readUnsigned token).mapError (.badInteger (String.ofList token)) := by
  unfold readInteger
  rw [dropCommas_of_not_mem hcomma]
  dsimp only
  split
  · exact absurd List.mem_cons_self hminus
  · rfl

/-- A number without a sign is read by its digits. -/
theorem readSigned_of_isPlain {base : Nat} {cs : List Char} (hne : cs ≠ [])
    (hplain : ∀ c ∈ cs, IsPlain c) :
    readSigned base cs = (readDigits base (2 ^ 63 - 1) .tooLarge 0 cs).map Int.ofNat := by
  unfold readSigned
  split
  · exact absurd rfl hne
  · exact absurd (hplain '+' List.mem_cons_self) (by decide)
  · exact absurd (hplain '-' List.mem_cons_self) (by decide)
  · exact absurd (hplain '-' List.mem_cons_self) (by decide)
  · exact absurd (hplain '+' List.mem_cons_self) (by decide)
  · rfl

/-- A number without a mark is read in base ten. -/
theorem readUnsigned_of_isPlain {cs : List Char} (hplain : ∀ c ∈ cs, IsPlain c) :
    readUnsigned cs = readSigned 10 cs := by
  unfold readUnsigned
  split
  · exact absurd (hplain 'x' (List.mem_cons_of_mem _ List.mem_cons_self)) (by decide)
  · exact absurd (hplain 'X' (List.mem_cons_of_mem _ List.mem_cons_self)) (by decide)
  · rfl

theorem readUnsigned_toDigits (n : Nat) :
    readUnsigned (Nat.toDigits 10 n)
      = if n ≤ 2 ^ 63 - 1 then .ok (n : Int) else .error .tooLarge := by
  have hdigits : readDigits 10 (2 ^ 63 - 1) .tooLarge 0 ((Nat.toDigits 10 n).map id) = _ :=
    readDigits_toDigits (by norm_num) digitValue?_decimal n
  rw [List.map_id] at hdigits
  rw [readUnsigned_of_isPlain (fun c => isPlain_of_mem_toDigits),
    readSigned_of_isPlain Nat.toDigits_ne_nil (fun c => isPlain_of_mem_toDigits), hdigits]
  split_ifs <;> rfl

/-! ## Written numbers -/

theorem toList_decimal (n : Nat) : (decimal n).toList = Nat.toDigits 10 n := Nat.toList_repr

theorem toList_signedDecimal_of_neg {v : Int} (h : v < 0) :
    (signedDecimal v).toList = '-' :: Nat.toDigits 10 v.natAbs := by
  rw [signedDecimal, if_pos h, String.toList_append, toList_decimal]
  rfl

theorem toList_signedDecimal_of_nonneg {v : Int} (h : 0 ≤ v) :
    (signedDecimal v).toList = Nat.toDigits 10 v.natAbs := by
  rw [signedDecimal, if_neg (not_lt.mpr h), toList_decimal]

theorem toList_hexId (width n : Nat) :
    ∃ count, (hexId width n).toList
      = '0' :: 'x' :: (List.replicate count '0' ++ (Nat.toDigits 16 n).map Char.toUpper) := by
  refine ⟨width - ((hexDigits n).map Char.toUpper).length, ?_⟩
  simp only [hexId, padLeft, hexDigits, String.toList_append, String.toList_map,
    String.toList_ofList]
  rfl

/-- **The decimal form of a natural number** is read as that number, or is too
large for 64 bits. -/
theorem readInteger_decimal (n : Nat) :
    readInteger (decimal n).toList
      = if n ≤ 2 ^ 63 - 1 then .ok (n : Int) else .error (.badInteger (decimal n) .tooLarge) := by
  have hplain : ∀ c ∈ (decimal n).toList, IsPlain c := fun c hc =>
    isPlain_of_mem_toDigits (toList_decimal n ▸ hc)
  rw [readInteger_of_not_mem (fun hmem => absurd (hplain ',' hmem) (by decide))
    (fun hmem => absurd (hplain '-' hmem) (by decide)), String.ofList_toList, toList_decimal,
    readUnsigned_toDigits]
  split_ifs <;> rfl

/-- **The decimal form of an integer** is read as that integer. -/
theorem readInteger_signedDecimal {v : Int} (h : v.natAbs ≤ 2 ^ 63 - 1) :
    readInteger (signedDecimal v).toList = .ok v := by
  rcases lt_or_ge v 0 with hneg | hpos
  · have hcomma : ',' ∉ '-' :: Nat.toDigits 10 v.natAbs := fun hmem => by
      rcases List.mem_cons.mp hmem with heq | hmem
      · exact absurd heq (by decide)
      · exact absurd (isPlain_of_mem_toDigits hmem) (by decide)
    rw [toList_signedDecimal_of_neg hneg, readInteger_of_minus hcomma, readUnsigned_toDigits,
      if_pos h]
    refine congrArg Except.ok ?_
    show -(v.natAbs : Int) = v
    omega
  · have hdecimal := readInteger_decimal v.natAbs
    rw [if_pos h, toList_decimal, Int.natAbs_of_nonneg hpos] at hdecimal
    rw [toList_signedDecimal_of_nonneg hpos, hdecimal]

/-- **An identifier in base sixteen** is read as its number. -/
theorem readInteger_hexId {n : Nat} (width : Nat) (h : n ≤ 2 ^ 63 - 1) :
    readInteger (hexId width n).toList = .ok (n : Int) := by
  obtain ⟨count, htoken⟩ := toList_hexId width n
  have hplain : ∀ c ∈ List.replicate count '0' ++ (Nat.toDigits 16 n).map Char.toUpper, IsPlain c :=
    fun _ => isPlain_of_mem_hexDigits
  have hne : List.replicate count '0' ++ (Nat.toDigits 16 n).map Char.toUpper ≠ [] :=
    List.append_ne_nil_of_right_ne_nil _ (mt List.map_eq_nil_iff.mp Nat.toDigits_ne_nil)
  -- the mark itself holds a digit and a letter, and neither a comma nor a sign
  have hmark : ∀ c, c ≠ '0' → c ≠ 'x' → ¬IsPlain c → c ∉ (hexId width n).toList :=
    fun c hzero hx hsign hmem => by
      rw [htoken, List.mem_cons, List.mem_cons] at hmem
      rcases hmem with heq | heq | hmem
      · exact hzero heq
      · exact hx heq
      · exact hsign (hplain c hmem)
  rw [readInteger_of_not_mem (hmark ',' (by decide) (by decide) (by decide))
    (hmark '-' (by decide) (by decide) (by decide)), htoken]
  show ((readSigned 16 _).mapError _ : Except ListingFault Int) = _
  rw [readSigned_of_isPlain hne hplain, readDigits_replicate_zero,
    readDigits_toDigits (by norm_num) digitValue?_hexadecimal, if_pos h]
  rfl

/-! ## Written numbers as words -/

theorem isBlank_of_mem_decimal {n : Nat} : ∀ c ∈ (decimal n).toList, isBlank c = false :=
  fun _ hc => (isPlain_of_mem_toDigits (toList_decimal n ▸ hc)).1

theorem isBlank_of_mem_signedDecimal {v : Int} :
    ∀ c ∈ (signedDecimal v).toList, isBlank c = false := fun c hc => by
  rcases lt_or_ge v 0 with hneg | hpos
  · rw [toList_signedDecimal_of_neg hneg, List.mem_cons] at hc
    rcases hc with rfl | hc
    · decide
    · exact (isPlain_of_mem_toDigits hc).1
  · rw [toList_signedDecimal_of_nonneg hpos] at hc
    exact (isPlain_of_mem_toDigits hc).1

theorem isBlank_of_mem_hexId {width n : Nat} :
    ∀ c ∈ (hexId width n).toList, isBlank c = false := fun c hc => by
  obtain ⟨count, htoken⟩ := toList_hexId width n
  rw [htoken, List.mem_cons, List.mem_cons] at hc
  rcases hc with rfl | rfl | hc
  · decide
  · decide
  · exact (isPlain_of_mem_hexDigits hc).1

end FieldMap.Listing
