import FieldMap.Proofs.SectionTables
import Mathlib.Data.List.TakeWhile

/-!
# Where dialog texts are found

The dialog texts of a section are reached through a table. It opens with the number of texts
and goes on with the position of each text, counted from the start of the table. Nothing says
how long a text is: it goes on up to its end mark, and if there is none, then to the end of
the section.

So a text is determined by where it starts (`isTextAt_iff`), and what is read under a number
is the text at the position that the table has for it, whatever else stands there
(`text_eq_ok`). Texts may come in any order, with other bytes between them, and they may
share their bytes or begin inside of each other.
-/

/-- **The entries in front of the first mark** of a list: they hold no mark, and a mark or the
end of the list follows. -/
theorem List.takeWhile_ne_eq_iff {α : Type} [BEq α] [LawfulBEq α] {mark : α} {l front : List α} :
    l.takeWhile (· != mark) = front
      ↔ mark ∉ front ∧ ((∃ back, l = front ++ mark :: back) ∨ l = front) := by
  constructor
  · rintro rfl
    have hsplit := List.takeWhile_append_dropWhile (p := (· != mark)) (l := l)
    refine ⟨fun hmem => bne_iff_ne.mp (List.mem_takeWhile_imp (p := (· != mark)) hmem) rfl, ?_⟩
    cases hrest : l.dropWhile (· != mark) with
    | nil =>
      rw [hrest, List.append_nil] at hsplit
      exact .inr hsplit.symm
    | cons next back =>
      have hnext := List.head?_dropWhile_not (· != mark) l
      rw [hrest] at hnext
      obtain rfl : next = mark := bne_eq_false_iff_eq.mp hnext
      rw [hrest] at hsplit
      exact .inl ⟨back, hsplit.symm⟩
  · rintro ⟨hmem, hl⟩
    have hplain : ∀ x ∈ front, (x != mark) = true := fun x hx =>
      bne_iff_ne.mpr fun heq => hmem (heq ▸ hx)
    rcases hl with ⟨back, rfl⟩ | rfl
    · rw [List.takeWhile_append_of_pos hplain, List.takeWhile_cons_of_neg (by simp),
        List.append_nil]
    · exact List.takeWhile_eq_self_iff.mpr hplain

namespace FieldMap.ScriptSection

variable {data : Bytes} {s : ScriptSection} {base start index : Nat}

/-! ## Texts and tables of texts -/

/-- **A text that stands somewhere** holds no end mark, and it has one behind it or ends with
the section. -/
structure IsTextAt (data : Bytes) (start : Nat) (text : List UInt8) : Prop where
  not_mem : textEnd ∉ text
  ends : data.HoldsAt start (text ++ [textEnd])
    ∨ data.HoldsAt start text ∧ start + text.length = data.size

/-- **A table of texts** that stands somewhere, with the texts that it leads to. Each text is
given with its position. -/
structure HoldsTexts (data : Bytes) (base : Nat) (texts : List (UInt16 × List UInt8)) : Prop where
  /-- The number of texts is stored in two bytes. -/
  length_lt : texts.length < 65536
  table : data.HoldsAt base
    (toLittleEndian 2 texts.length ++ texts.flatMap fun entry => toLittleEndian 2 entry.1.toNat)
  not_mem : ∀ entry ∈ texts, 0xFF ∉ entry.2
  stored : ∀ entry ∈ texts, data.HoldsAt (base + entry.1.toNat) (entry.2 ++ [0xFF])

/-! ## What is read as a text -/

/-- **A text is determined by its start**: it is all there is up to the first end mark. -/
theorem isTextAt_iff {text : List UInt8} :
    IsTextAt data start text
      ↔ start ≤ data.size ∧ (data.toList.drop start).takeWhile (· != textEnd) = text := by
  rw [List.takeWhile_ne_eq_iff]
  constructor
  · rintro ⟨hmem, hmark | ⟨hlast, hsize⟩⟩
    · obtain ⟨hle, back, hdrop⟩ := Bytes.HoldsAt.iff_drop.mp hmark
      refine ⟨hle, hmem, .inl ⟨back, ?_⟩⟩
      rw [hdrop, List.append_assoc, List.singleton_append]
    · obtain ⟨hle, back, hdrop⟩ := Bytes.HoldsAt.iff_drop.mp hlast
      have hlength := congrArg List.length hdrop
      rw [List.length_drop, List.length_append, Array.length_toList] at hlength
      obtain rfl : back = [] := List.eq_nil_of_length_eq_zero (by omega)
      exact ⟨hle, hmem, .inr (hdrop.trans (List.append_nil text))⟩
  · rintro ⟨hle, hmem, ⟨back, hdrop⟩ | hdrop⟩
    · refine ⟨hmem, .inl (Bytes.HoldsAt.iff_drop.mpr ⟨hle, back, ?_⟩)⟩
      rw [hdrop, List.append_assoc, List.singleton_append]
    · have hlength := congrArg List.length hdrop
      rw [List.length_drop, Array.length_toList] at hlength
      refine ⟨hmem, .inr ⟨Bytes.HoldsAt.iff_drop.mpr ⟨hle, [], ?_⟩, by omega⟩⟩
      rw [hdrop, List.append_nil]

/-- **What is read under a number** is the text at the position that the table has for it. -/
theorem text_eq_ok {text : Bytes} :
    s.text index = .ok text
      ↔ s.header.textOffset + 2 + 2 * index + 2 ≤ s.data.size
        ∧ IsTextAt s.data (s.header.textOffset
            + (s.data.wordAt (s.header.textOffset + 2 + 2 * index)).toNat) text.toList := by
  have hrest : ∀ start, ((s.data.extract start s.data.size).takeWhile (· != textEnd)).toList
      = (s.data.toList.drop start).takeWhile (· != textEnd) := fun start => by
    rw [Array.toList_takeWhile, Array.toList_extract, List.extract_eq_take_drop,
      List.take_of_length_le (by rw [List.length_drop, Array.length_toList])]
  unfold ScriptSection.text
  rw [isTextAt_iff, ← hrest]
  dsimp only
  rw [Except.bind_eq_ok]
  constructor
  · rintro ⟨position, hposition, h⟩
    obtain ⟨hfits, rfl⟩ := Bytes.readWord_eq_ok.mp hposition
    split_ifs at h with hle
    exact ⟨hfits, hle, congrArg Array.toList (Except.ok.inj h)⟩
  · rintro ⟨hfits, hle, htext⟩
    refine ⟨_, Bytes.readWord_eq_ok.mpr ⟨hfits, rfl⟩, ?_⟩
    rw [if_pos hle]
    exact congrArg Except.ok (Array.toList_inj.mp htext)

/-! ## Texts that a table leads to -/

namespace HoldsTexts

variable {texts : List (UInt16 × List UInt8)}

/-- The number of texts is read. -/
theorem textCount_eq (h : HoldsTexts s.data s.header.textOffset texts) :
    s.textCount = .ok texts.length := h.table.left.readNumber h.length_lt _

/-- **Each text is read** under its number. -/
theorem text_eq (h : HoldsTexts s.data s.header.textOffset texts) {position : UInt16}
    {text : List UInt8} (hentry : texts[index]? = some (position, text)) :
    s.text index = .ok text.toArray := by
  have hpositions := h.table.behind (length_toLittleEndian ..)
  have hword := hpositions.entry (fun _ _ => length_toLittleEndian ..) hentry
  rw [Nat.mul_comm] at hword
  have hmem := List.mem_of_getElem? hentry
  have hfits := hword.le_size
  rw [length_toLittleEndian] at hfits
  refine text_eq_ok.mpr ⟨hfits, h.not_mem _ hmem, .inl ?_⟩
  rw [hword.wordAt]
  exact h.stored _ hmem

end HoldsTexts

/-- **Every dialog text is found.** If a table of texts stands where the texts of a section
start, then the number that is read is that of the texts, and each of them is read under its
number, however they lie. And whatever text is read of a section, it starts at the position
that stands for it in the table, it holds no end mark, and it ends in front of one or at the
end of the section. -/
theorem texts_found {data : Bytes} {s : ScriptSection} (h : parse data = .ok s) :
    (∀ texts, HoldsTexts data s.header.textOffset texts →
        s.textCount = .ok texts.length
          ∧ ∀ index position text, texts[index]? = some (position, text) →
            s.text index = .ok text.toArray)
      ∧ ∀ index text, s.text index = .ok text →
        ∃ start, start = s.header.textOffset
            + (data.wordAt (s.header.textOffset + 2 + 2 * index)).toNat
          ∧ 0xFF ∉ text.toList
          ∧ (data.HoldsAt start (text.toList ++ [0xFF])
            ∨ data.HoldsAt start text.toList ∧ start + text.size = data.size) := by
  obtain ⟨-, rfl⟩ := parse_eq_ok.mp h
  refine ⟨fun texts htexts => ⟨htexts.textCount_eq, fun index position text => htexts.text_eq⟩,
    fun index text htext => ?_⟩
  obtain ⟨-, hmem, hends⟩ := text_eq_ok.mp htext
  exact ⟨_, rfl, hmem, hends⟩

/-- A section of three texts. The first stands last, the third is the tail of the second, and
behind all texts there is a byte that belongs to none. -/
def sharedTail : Bytes :=
  List.toArray <| List.replicate 4 0 ++ [32, 0] ++ List.replicate 26 0
    ++ [3, 0, 11, 0, 8, 0, 9, 0] ++ [13, 0, 0xFF] ++ [0x23, 0xFF] ++ [0x24]

/-- The three texts are found. The second of them is also taken for a position if one asks for
a fourth, which ends with the section. -/
theorem texts_found_sharedTail :
    ∃ s, parse sharedTail = .ok s ∧ s.textCount = .ok 3
      ∧ s.text 0 = .ok #[0x23] ∧ s.text 1 = .ok #[13, 0] ∧ s.text 2 = .ok #[0]
      ∧ s.text 3 = .ok #[0x24] ∧ sharedTail.HoldsAt 45 [0x24] ∧ 45 + 1 = sharedTail.size := by
  have hparse : parse sharedTail = .ok (describedBy sharedTail) :=
    parse_eq_ok.mpr ⟨by decide +kernel, rfl⟩
  have hbase : (describedBy sharedTail).header.textOffset = 32 := by decide +kernel
  have hholds : ∀ start part back, start ≤ sharedTail.size →
      sharedTail.toList.drop start = part ++ back → sharedTail.HoldsAt start part :=
    fun start part back hle hdrop => Bytes.HoldsAt.iff_drop.mpr ⟨hle, back, hdrop⟩
  have htexts : HoldsTexts sharedTail (describedBy sharedTail).header.textOffset
      [(11, [0x23]), (8, [13, 0]), (9, [0])] := by
    rw [hbase]
    refine ⟨by decide, hholds _ _ [13, 0, 0xFF, 0x23, 0xFF, 0x24] ?_ ?_, by decide, ?_⟩
    · decide +kernel
    · decide +kernel
    · simp only [List.forall_mem_cons]
      exact ⟨hholds _ _ [0x24] (by decide +kernel) (by decide +kernel),
        hholds _ _ [0x23, 0xFF, 0x24] (by decide +kernel) (by decide +kernel),
        hholds _ _ [0x23, 0xFF, 0x24] (by decide +kernel) (by decide +kernel),
        List.forall_mem_nil _⟩
  obtain ⟨hfound, hends⟩ := texts_found hparse
  obtain ⟨hcount, htext⟩ := hfound _ htexts
  have hfourth : (describedBy sharedTail).text 3 = .ok #[0x24] := by decide +kernel
  obtain ⟨start, hstart, -, hlast⟩ := hends 3 _ hfourth
  obtain rfl : start = 45 := hstart.trans (by decide +kernel)
  rcases hlast with hmark | ⟨hlast, hsize⟩
  · exact absurd hmark.le_size (by decide +kernel)
  · exact ⟨_, hparse, hcount, htext 0 _ _ rfl, htext 1 _ _ rfl, htext 2 _ _ rfl, hfourth, hlast,
      hsize⟩

end FieldMap.ScriptSection
