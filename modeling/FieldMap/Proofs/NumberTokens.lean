import Mathlib.Data.Nat.Digits.Defs
import FieldMap.Proofs.Numerals

/-!
# Which tokens are numbers

A number of a listing is written with decimal digits, or with the mark `0x` and digits in base
sixteen. A minus sign may stand in front of it, and commas behind it do not count. That is the
grammar (`IsNumberToken`), and every number of 63 bits that is written by it is read as what
it denotes.

The reader takes the minus sign and the mark off a token and leaves the digits to a reader of
signed numbers, so the digits may bring a sign of their own (`HasOwnSign`). Tokens without
such a sign are read by the grammar and by nothing else (`number_tokens`). But the grammar has
no place for a second sign, for one behind the mark, or for a plus sign, and tokens with such
a sign are read all the same (`own_sign_read`).
-/

namespace FieldMap.Listing

-- powers of numbers are those of the core library, whatever else is imported
attribute [local instance (high)] instPowNat

/-! ## The grammar -/

/-- **A character that stands for a digit** of a base. Above nine the digits are letters, small
or capital. -/
def IsDigitOf (base : Nat) (c : Char) (digit : Nat) : Prop :=
  digit < base ∧ (c = digit.digitChar ∨ c = digit.digitChar.toUpper)

instance (base : Nat) (c : Char) (digit : Nat) : Decidable (IsDigitOf base c digit) :=
  inferInstanceAs (Decidable (_ ∧ _))

/-- **The digits of a number** in a base, from the highest on. There is at least one. -/
def IsDigits (base : Nat) (cs : List Char) (n : Nat) : Prop :=
  cs ≠ [] ∧ ∃ digits, List.Forall₂ (IsDigitOf base) cs digits ∧ Nat.ofDigits base digits.reverse = n

/-- **The mark of a base.** Base ten has none. -/
inductive BaseMark where
  | decimal
  | small
  | capital
deriving DecidableEq

namespace BaseMark

/-- The characters of a mark. -/
def text : BaseMark → List Char
  | decimal => []
  | small => ['0', 'x']
  | capital => ['0', 'X']

/-- The base that a mark announces. -/
def base : BaseMark → Nat
  | decimal => 10
  | small => 16
  | capital => 16

theorem base_le (mark : BaseMark) : mark.base ≤ 16 := by
  cases mark <;> decide

end BaseMark

/-- **What may stand in front of digits**: a minus sign, and the mark of their base. -/
structure Front where
  negative : Bool
  mark : BaseMark
deriving DecidableEq

namespace Front

/-- The characters in front of the digits. -/
def text (front : Front) : List Char :=
  (if front.negative then ['-'] else []) ++ front.mark.text

/-- The number that stands behind a front, with the sign of the front. -/
def value (front : Front) (v : Int) : Int := if front.negative then -v else v

end Front

/-- **A token that the grammar takes for a number** of at most 63 bits: digits behind their
front, and any number of commas behind them. -/
def IsNumberToken (token : List Char) (value : Int) : Prop :=
  ∃ (front : Front) (digits : List Char) (n commas : Nat),
    token = front.text ++ digits ++ List.replicate commas ','
      ∧ IsDigits front.mark.base digits n ∧ n ≤ 2 ^ 63 - 1 ∧ value = front.value n

/-- **Digits with a sign of their own**, and the number that they denote together. -/
inductive IsOwnSigned (base : Nat) : List Char → Int → Prop
  | plus {digits : List Char} {n : Nat} (h : IsDigits base digits n) (hle : n ≤ 2 ^ 63 - 1) :
    IsOwnSigned base ('+' :: digits) n
  | minus {digits : List Char} {n : Nat} (h : IsDigits base digits n) (hle : n ≤ 2 ^ 63) :
    IsOwnSigned base ('-' :: digits) (-n)

/-- **A token whose digits have a sign of their own.** A minus sign with nothing in front of it
is none, since it belongs to the front. -/
def HasOwnSign (token : List Char) (value : Int) : Prop :=
  ∃ (front : Front) (rest : List Char) (v : Int) (commas : Nat),
    token = front.text ++ rest ++ List.replicate commas ','
      ∧ IsOwnSigned front.mark.base rest v ∧ (front.text = [] → rest.head? ≠ some '-')
      ∧ value = front.value v

variable {base limit m digit : Nat} {c : Char} {cs token digits : List Char} {value : Int}

/-! ## Digits -/

theorem digitValue?_small :
    ∀ digit < 16, digitValue? 16 digit.digitChar = some digit := by
  decide

/-- Every character of ASCII that is read as a digit stands for it. -/
theorem isDigitOf_ofNat :
    ∀ code < 128, ∀ digit ∈ digitValue? 16 (Char.ofNat code),
      IsDigitOf 16 (Char.ofNat code) digit := by
  decide

/-- No character beyond ASCII is read as a digit. -/
theorem digitValue?_of_le (h : 128 ≤ c.toNat) : digitValue? base c = none := by
  have hgt : ∀ d : Char, d.toNat < 128 → ¬c ≤ d := fun d hd hcd =>
    absurd (hd.trans_le h) (Nat.not_lt.mpr hcd)
  unfold digitValue?
  rw [if_neg fun hc => hgt '9' (by decide) hc.2, if_neg fun hc => hgt 'f' (by decide) hc.2,
    if_neg fun hc => hgt 'F' (by decide) hc.2]
  rfl

/-- The digits of a base are those of base sixteen that are small enough. -/
theorem digitValue?_eq_filter (hbase : base ≤ 16) (c : Char) :
    digitValue? base c = (digitValue? 16 c).filter (· < base) := by
  unfold digitValue?
  dsimp only
  rw [Option.filter_filter]
  refine congrArg (Option.filter · _) (funext fun digit => ?_)
  rw [← Bool.decide_and]
  exact decide_eq_decide.mpr ⟨fun h => ⟨h.trans_le hbase, h⟩, fun h => h.2⟩

/-- **A character is read as the digit that it stands for.** -/
theorem digitValue?_eq_some (hbase : base ≤ 16) :
    digitValue? base c = some digit ↔ IsDigitOf base c digit := by
  rw [digitValue?_eq_filter hbase, Option.filter_eq_some_iff, decide_eq_true_iff]
  constructor
  · rintro ⟨hvalue, hlt⟩
    rcases Nat.lt_or_ge c.toNat 128 with hascii | hlarge
    · have hdigit := isDigitOf_ofNat c.toNat hascii
      rw [Char.ofNat_toNat] at hdigit
      exact ⟨hlt, (hdigit digit hvalue).2⟩
    · rw [digitValue?_of_le hlarge] at hvalue
      exact nomatch hvalue
  · rintro ⟨hlt, rfl | rfl⟩
    · exact ⟨digitValue?_small digit (hlt.trans_le hbase), hlt⟩
    · exact ⟨digitValue?_hexadecimal digit (hlt.trans_le hbase), hlt⟩

/-- The number that digits make of one that stands in front of them. -/
def withDigits (base n : Nat) (digits : List Nat) : Nat :=
  digits.foldl (fun n digit => n * base + digit) n

theorem withDigits_zero (base : Nat) (digits : List Nat) :
    withDigits base 0 digits = Nat.ofDigits base digits.reverse := by
  rw [Nat.ofDigits_eq_foldr, List.foldr_reverse]
  refine congrArg (List.foldl · 0 digits) (funext fun n => funext fun digit => ?_)
  rw [Nat.add_comm, Nat.mul_comm]
  rfl

theorem le_withDigits (hbase : 0 < base) (n : Nat) (digits : List Nat) :
    n ≤ withDigits base n digits := by
  induction digits generalizing n with
  | nil => exact Nat.le_refl n
  | cons digit digits ih =>
    calc n ≤ n * base := Nat.le_mul_of_pos_right n hbase
      _ ≤ n * base + digit := Nat.le_add_right ..
      _ ≤ withDigits base (n * base + digit) digits := ih _

/-- **Digits are read onto a number** as long as the result does not pass the limit. The
numbers on the way are not larger than the result, so none of them passes it either. -/
theorem readDigits_eq_ok {overflow : IntegerFault} {n : Nat} (hbase : base ≤ 16) (hm : m ≤ limit) :
    readDigits base limit overflow m cs = .ok n
      ↔ ∃ digits, List.Forall₂ (IsDigitOf base) cs digits ∧ withDigits base m digits = n
        ∧ n ≤ limit := by
  induction cs generalizing m with
  | nil =>
    rw [readDigits, Except.ok.injEq]
    constructor
    · rintro rfl
      exact ⟨[], .nil, rfl, hm⟩
    · rintro ⟨digits, hdigits, hn, -⟩
      obtain rfl := List.forall₂_nil_left_iff.mp hdigits
      exact hn
  | cons c cs ih =>
    rw [readDigits]
    constructor
    · intro h
      cases hdigit : digitValue? base c with
      | none =>
        rw [hdigit] at h
        cases h
      | some digit =>
        rw [hdigit] at h
        dsimp only at h
        split_ifs at h with hnext
        obtain ⟨digits, hdigits, hn, hle⟩ := (ih hnext).mp h
        exact ⟨digit :: digits, .cons ((digitValue?_eq_some hbase).mp hdigit) hdigits, hn, hle⟩
    · rintro ⟨digits, hdigits, hn, hle⟩
      obtain ⟨digit, digits, hdigit, hrest, rfl⟩ := List.forall₂_cons_left_iff.mp hdigits
      have hnext : m * base + digit ≤ limit :=
        ((le_withDigits (Nat.zero_lt_of_lt hdigit.1) _ digits).trans_eq hn).trans hle
      rw [(digitValue?_eq_some hbase).mpr hdigit]
      dsimp only
      rw [if_pos hnext, ih hnext]
      exact ⟨digits, hrest, hn, hle⟩

/-- **Digits are read as the number** that they are the digits of. -/
theorem map_readDigits_eq_ok {overflow : IntegerFault} {f : Nat → Int} (hbase : base ≤ 16)
    (hne : cs ≠ []) :
    (readDigits base limit overflow 0 cs).map f = .ok value
      ↔ ∃ n, IsDigits base cs n ∧ n ≤ limit ∧ value = f n := by
  rw [Except.map_eq_ok]
  simp only [readDigits_eq_ok hbase (Nat.zero_le limit), withDigits_zero]
  constructor
  · rintro ⟨n, ⟨digits, hdigits, hn, hle⟩, rfl⟩
    exact ⟨n, ⟨hne, digits, hdigits, hn⟩, hle, rfl⟩
  · rintro ⟨n, ⟨-, digits, hdigits, hn⟩, hle, rfl⟩
    exact ⟨n, ⟨digits, hdigits, hn, hle⟩, rfl⟩

/-- No digit is a sign, a comma or the mark of a base. -/
theorem IsDigits.isPlain {n : Nat} (hbase : base ≤ 16) (h : IsDigits base cs n) :
    ∀ c ∈ cs, IsPlain c := by
  obtain ⟨-, digits, hdigits, -⟩ := h
  induction hdigits with
  | nil => exact fun _ hmem => absurd hmem List.not_mem_nil
  | cons hdigit _ ih =>
    refine List.forall_mem_cons.mpr ⟨?_, ih⟩
    obtain ⟨hlt, rfl | rfl⟩ := hdigit
    · exact (isPlain_digit _ (hlt.trans_le hbase)).1
    · exact (isPlain_digit _ (hlt.trans_le hbase)).2

/-! ## Signs -/

theorem readSigned_plus (base : Nat) (hne : digits ≠ []) :
    readSigned base ('+' :: digits)
      = (readDigits base (2 ^ 63 - 1) .tooLarge 0 digits).map Int.ofNat := by
  obtain ⟨c, cs, rfl⟩ := List.exists_cons_of_ne_nil hne
  rfl

theorem readSigned_minus (base : Nat) (hne : digits ≠ []) :
    readSigned base ('-' :: digits)
      = (readDigits base (2 ^ 63) .tooSmall 0 digits).map fun n : Nat => -(n : Int) := by
  obtain ⟨c, cs, rfl⟩ := List.exists_cons_of_ne_nil hne
  show Except.map Int.neg (readDigits base (2 ^ 63) .tooSmall 0 (c :: cs) >>= fun n =>
    pure (n : Int)) = _
  cases readDigits base (2 ^ 63) .tooSmall 0 (c :: cs) <;> rfl

theorem readSigned_of_ne (base : Nat) (hplus : c ≠ '+') (hminus : c ≠ '-') :
    readSigned base (c :: cs)
      = (readDigits base (2 ^ 63 - 1) .tooLarge 0 (c :: cs)).map Int.ofNat := by
  unfold readSigned
  split
  · exact absurd ‹_› (List.cons_ne_nil c cs)
  · exact absurd (List.cons.inj ‹_›).1 hplus
  · exact absurd (List.cons.inj ‹_›).1 hminus
  · exact absurd (List.cons.inj ‹_›).1 hminus
  · exact absurd (List.cons.inj ‹_›).1 hplus
  · rfl

/-- **Digits are read with or without a sign.** -/
theorem readSigned_eq_ok (hbase : base ≤ 16) :
    readSigned base cs = .ok value
      ↔ (∃ n, IsDigits base cs n ∧ n ≤ 2 ^ 63 - 1 ∧ value = n) ∨ IsOwnSigned base cs value := by
  constructor
  · intro h
    cases cs with
    | nil => exact nomatch h
    | cons c digits =>
      -- a sign alone is refused, so that digits follow it
      by_cases hplus : c = '+'
      · subst hplus
        have hne : digits ≠ [] := fun hnil => nomatch hnil ▸ h
        rw [readSigned_plus base hne, map_readDigits_eq_ok hbase hne] at h
        obtain ⟨n, hdigits, hle, rfl⟩ := h
        exact .inr (.plus hdigits hle)
      by_cases hminus : c = '-'
      · subst hminus
        have hne : digits ≠ [] := fun hnil => nomatch hnil ▸ h
        rw [readSigned_minus base hne, map_readDigits_eq_ok hbase hne] at h
        obtain ⟨n, hdigits, hle, rfl⟩ := h
        exact .inr (.minus hdigits hle)
      · rw [readSigned_of_ne base hplus hminus,
          map_readDigits_eq_ok hbase (List.cons_ne_nil c digits)] at h
        exact .inl h
  · rintro (⟨n, hdigits, hle, rfl⟩ | ⟨hdigits, hle⟩ | ⟨hdigits, hle⟩)
    · rw [readSigned_of_isPlain hdigits.1 (hdigits.isPlain hbase)]
      exact (map_readDigits_eq_ok hbase hdigits.1).mpr ⟨n, hdigits, hle, rfl⟩
    · rw [readSigned_plus base hdigits.1]
      exact (map_readDigits_eq_ok hbase hdigits.1).mpr ⟨_, hdigits, hle, rfl⟩
    · rw [readSigned_minus base hdigits.1]
      exact (map_readDigits_eq_ok hbase hdigits.1).mpr ⟨_, hdigits, hle, rfl⟩

/-! ## Fronts -/

/-- The base is that of the mark, if what follows can be read in this base. -/
theorem readUnsigned_eq_ok :
    readUnsigned cs = .ok value
      ↔ ∃ (mark : BaseMark) (rest : List Char), cs = mark.text ++ rest
        ∧ readSigned mark.base rest = .ok value := by
  constructor
  · intro h
    unfold readUnsigned at h
    split at h
    · exact ⟨.small, _, rfl, h⟩
    · exact ⟨.capital, _, rfl, h⟩
    · exact ⟨.decimal, _, rfl, h⟩
  · rintro ⟨mark, rest, rfl, h⟩
    cases mark with
    | small => exact h
    | capital => exact h
    | decimal =>
      -- digits in base ten do not go on with a letter, so they hold no mark
      have hmark : ∀ c tail, c ∈ ['x', 'X'] → rest ≠ '0' :: c :: tail := by
        rintro c tail hc rfl
        rcases (readSigned_eq_ok (by decide)).mp h with ⟨n, hdigits, -⟩ | hown
        · exact (hdigits.isPlain (by decide) c (by simp)).2 (by simp_all)
        · nomatch hown
      show readUnsigned rest = _
      unfold readUnsigned
      split
      · exact absurd rfl (hmark 'x' _ (by decide))
      · exact absurd rfl (hmark 'X' _ (by decide))
      · exact h

/-- **A number is read behind its front**, which ends as late as it can. -/
theorem readInteger_eq_ok :
    readInteger token = .ok value
      ↔ ∃ (front : Front) (rest : List Char) (v : Int), dropCommas token = front.text ++ rest
        ∧ (front.text = [] → rest.head? ≠ some '-') ∧ readSigned front.mark.base rest = .ok v
        ∧ value = front.value v := by
  unfold readInteger
  dsimp only
  rw [Except.mapError_eq_ok]
  generalize dropCommas token = t
  constructor
  · intro h
    split at h
    · obtain ⟨v, hread, rfl⟩ := Except.map_eq_ok.mp h
      obtain ⟨mark, rest, rfl, hrest⟩ := readUnsigned_eq_ok.mp hread
      exact ⟨⟨true, mark⟩, rest, v, rfl, nofun, hrest, rfl⟩
    · rename_i hminus
      obtain ⟨mark, rest, rfl, hrest⟩ := readUnsigned_eq_ok.mp h
      refine ⟨⟨false, mark⟩, rest, value, rfl, fun hnil hhead => ?_, hrest, rfl⟩
      obtain ⟨tail, rfl⟩ := List.head?_eq_some_iff.mp hhead
      exact hminus tail (by rw [show mark.text = [] from hnil]; rfl)
  · rintro ⟨⟨negative, mark⟩, rest, v, rfl, hhead, hread, rfl⟩
    have hunsigned := readUnsigned_eq_ok.mpr ⟨mark, rest, rfl, hread⟩
    cases negative with
    | true => exact Except.map_eq_ok.mpr ⟨v, hunsigned, rfl⟩
    | false =>
      split
      · rename_i tail htail
        cases mark with
        | decimal => exact absurd (congrArg List.head? htail) (hhead rfl)
        | small => exact nomatch htail
        | capital => exact nomatch htail
      · exact hunsigned

/-! ## Tokens -/

theorem dropCommas_append {t : List Char} (h : ',' ∉ t) (commas : Nat) :
    dropCommas (t ++ List.replicate commas ',') = t := by
  induction commas with
  | zero => rw [List.replicate_zero, List.append_nil, dropCommas_of_not_mem h]
  | succ commas ih =>
    rw [List.replicate_succ', ← List.append_assoc]
    exact (List.rdropWhile_concat_pos _ _ _ rfl).trans ih

theorem exists_dropCommas (token : List Char) :
    ∃ commas, token = dropCommas token ++ List.replicate commas ',' := by
  refine ⟨(token.reverse.takeWhile (· == ',')).length, ?_⟩
  have hcommas : token.reverse.takeWhile (· == ',')
      = List.replicate (token.reverse.takeWhile (· == ',')).length ',' :=
    List.eq_replicate_of_mem fun c hc => beq_iff_eq.mp (List.mem_takeWhile_imp (p := (· == ',')) hc)
  have hsplit := congrArg List.reverse
    (List.takeWhile_append_dropWhile (p := (· == ',')) (l := token.reverse))
  rw [hcommas, List.reverse_append, List.reverse_replicate, List.reverse_reverse] at hsplit
  exact hsplit.symm

/-- A front holds no comma and no plus sign, and a minus sign only at its start. -/
theorem Front.not_mem_text (front : Front) :
    ',' ∉ front.text ∧ '+' ∉ front.text ∧ '-' ∉ front.text.tail := by
  obtain ⟨negative, mark⟩ := front
  cases negative <;> cases mark <;> decide

theorem IsDigits.comma_not_mem {n : Nat} (hbase : base ≤ 16) (h : IsDigits base cs n) :
    ',' ∉ cs := fun hmem => absurd (h.isPlain hbase ',' hmem) (by decide)

theorem IsOwnSigned.comma_not_mem (hbase : base ≤ 16) (h : IsOwnSigned base cs value) :
    ',' ∉ cs := by
  cases h with
  | plus hdigits _ =>
    exact List.not_mem_cons_of_ne_of_not_mem (by decide) (hdigits.comma_not_mem hbase)
  | minus hdigits _ =>
    exact List.not_mem_cons_of_ne_of_not_mem (by decide) (hdigits.comma_not_mem hbase)

/-- **Tokens are read** if they are numbers, or if their digits have a sign of their own. -/
theorem readInteger_eq_ok_iff :
    readInteger token = .ok value ↔ IsNumberToken token value ∨ HasOwnSign token value := by
  rw [readInteger_eq_ok]
  constructor
  · rintro ⟨front, rest, v, hdrop, hhead, hread, rfl⟩
    obtain ⟨commas, htoken⟩ := exists_dropCommas token
    rw [hdrop] at htoken
    rcases (readSigned_eq_ok front.mark.base_le).mp hread with ⟨n, hdigits, hle, rfl⟩ | hown
    · exact .inl ⟨front, rest, n, commas, htoken, hdigits, hle, rfl⟩
    · exact .inr ⟨front, rest, v, commas, htoken, hown, hhead, rfl⟩
  · rintro (⟨front, digits, n, commas, rfl, hdigits, hle, rfl⟩
      | ⟨front, rest, v, commas, rfl, hown, hhead, rfl⟩)
    · have hplain := hdigits.isPlain front.mark.base_le
      have hcomma : ',' ∉ front.text ++ digits := List.not_mem_append front.not_mem_text.1
        (hdigits.comma_not_mem front.mark.base_le)
      refine ⟨front, digits, n, dropCommas_append hcomma commas, fun _ hhead => ?_,
        (readSigned_eq_ok front.mark.base_le).mpr (.inl ⟨n, hdigits, hle, rfl⟩), rfl⟩
      exact absurd (hplain '-' (List.mem_of_mem_head? hhead)) (by decide)
    · have hcomma : ',' ∉ front.text ++ rest := List.not_mem_append front.not_mem_text.1
        (hown.comma_not_mem front.mark.base_le)
      exact ⟨front, rest, v, dropCommas_append hcomma commas, hhead,
        (readSigned_eq_ok front.mark.base_le).mpr (.inr hown), rfl⟩

/-- **A number has no sign** but the minus sign at its start. -/
theorem not_mem_of_isNumberToken (h : IsNumberToken token value) :
    '+' ∉ token ∧ '-' ∉ token.tail := by
  obtain ⟨front, digits, n, commas, rfl, hdigits, -⟩ := h
  obtain ⟨-, hplus, hminus⟩ := front.not_mem_text
  have hsign : ∀ c, ¬IsPlain c → c ≠ ',' → c ∉ digits ++ List.replicate commas ',' :=
    fun c hplain hcomma => List.not_mem_append
      (fun hmem => hplain (hdigits.isPlain front.mark.base_le c hmem))
      (fun hmem => hcomma (List.eq_of_mem_replicate hmem))
  rw [List.append_assoc]
  refine ⟨List.not_mem_append hplus (hsign '+' (by decide) (by decide)), ?_⟩
  cases hfront : front.text with
  | nil => exact fun hmem => hsign '-' (by decide) (by decide) (List.mem_of_mem_tail hmem)
  | cons c text =>
    rw [hfront] at hminus
    exact List.not_mem_append hminus (hsign '-' (by decide) (by decide))

/-- **A sign that digits have of their own** is a plus sign, or it does not stand at the
start. -/
theorem mem_of_hasOwnSign (h : HasOwnSign token value) : '+' ∈ token ∨ '-' ∈ token.tail := by
  obtain ⟨front, rest, v, commas, rfl, hown, hhead, -⟩ := h
  rw [List.append_assoc]
  obtain ⟨-, -⟩ | ⟨-, -⟩ := hown
  · exact .inl (List.mem_append_right _ List.mem_cons_self)
  · refine .inr ?_
    cases hfront : front.text with
    | nil => exact absurd rfl (hhead hfront)
    | cons c text => exact List.mem_append_right text List.mem_cons_self

/-- **Numbers are read by their grammar.** A token without a sign, or with a minus sign at its
start and no other, is read just if it is a number of at most 63 bits, and then as this
number. All numbers are such tokens, so none of them is lost. The only other tokens that are
read, if what they denote fits in 64 bits, are those whose digits have a sign of their
own. -/
theorem number_tokens (token : List Char) (value : Int) :
    ('+' ∉ token → '-' ∉ token.tail →
        (readInteger token = .ok value ↔ IsNumberToken token value))
      ∧ (IsNumberToken token value → '+' ∉ token ∧ '-' ∉ token.tail)
      ∧ (value < 2 ^ 63 →
        (readInteger token = .ok value ↔ IsNumberToken token value ∨ HasOwnSign token value)) := by
  refine ⟨fun hplus hminus => ?_, not_mem_of_isNumberToken, fun _ => readInteger_eq_ok_iff⟩
  rw [readInteger_eq_ok_iff]
  refine ⟨fun h => h.resolve_right fun hown => ?_, .inl⟩
  exact (mem_of_hasOwnSign hown).elim hplus hminus

/-- A negative number in base sixteen with commas behind it, and a token with two signs. -/
theorem number_tokens_both :
    IsNumberToken ['-', '0', 'X', '1', 'f', ',', ','] (-31) ∧ HasOwnSign ['-', '-', '5'] 5 := by
  obtain ⟨hnumber, -, -⟩ := number_tokens ['-', '0', 'X', '1', 'f', ',', ','] (-31)
  obtain ⟨-, hsigns, hother⟩ := number_tokens ['-', '-', '5'] 5
  refine ⟨(hnumber (by decide) (by decide)).mp rfl, ?_⟩
  exact ((hother (by decide)).mp rfl).resolve_left fun h => absurd (hsigns h).2 (by decide)

/-- **Tokens that are no numbers are read**: one with two signs, one with a sign behind the mark
of its base, and one with a plus sign. -/
theorem own_sign_read :
    readInteger ['-', '-', '5'] = .ok 5 ∧ readInteger ['0', 'x', '-', '5'] = .ok (-5)
      ∧ readInteger ['+', '5'] = .ok 5
      ∧ ¬∃ value, IsNumberToken ['-', '-', '5'] value ∨ IsNumberToken ['0', 'x', '-', '5'] value
        ∨ IsNumberToken ['+', '5'] value := by
  refine ⟨rfl, rfl, rfl, ?_⟩
  rintro ⟨value, h | h | h⟩
  · exact absurd (not_mem_of_isNumberToken h).2 (by decide)
  · exact absurd (not_mem_of_isNumberToken h).2 (by decide)
  · exact absurd (not_mem_of_isNumberToken h).1 (by decide)

end FieldMap.Listing
