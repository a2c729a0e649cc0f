import Mathlib.Data.List.Sort
import Mathlib.Tactic
import FieldMap.Listing.Parser
import FieldMap.Proofs.Shape
import FieldMap.Proofs.Words

/-!
# Mnemonics

An instruction is found again by its mnemonic, since no two rows of the table
share one, whatever its case, and none is called as a label is
(`idOf?_mnemonic`). A mnemonic is a word and opens no comment.

These are facts about the rows of one fixed table. To compare every mnemonic
with every other would take long, and so each is turned into a number first
and the numbers are sorted: a list that ascends strictly holds nothing twice.
-/

namespace FieldMap.InstructionSet

open FieldMap.Text

/-- A mnemonic in capital letters. -/
def capitals (row : InstructionInfo) : List Char := row.mnemonic.toList.map Char.toUpper

/-- A number for a mnemonic: its characters as the digits of base `256`. -/
def capitalsKey (row : InstructionInfo) : Nat :=
  (capitals row).foldl (fun key c => key * 256 + c.toNat) 0

/-- **No two rows have the same mnemonic**, and none has that of labels. -/
theorem nodup_capitals : ((labelInfo :: table.toList).map capitals).Nodup := by
  have hchain : (((labelInfo :: table.toList).map capitalsKey).insertionSort (· ≤ ·)).IsChain
      (· < ·) := by
    decide +kernel
  have hsorted := (List.isChain_iff_pairwise.mp hchain).imp (fun h => Nat.ne_of_lt h)
  have hkeys := (List.perm_insertionSort (· ≤ ·) _).nodup_iff.mp hsorted
  have hmap : (labelInfo :: table.toList).map capitalsKey
      = ((labelInfo :: table.toList).map capitals).map fun name =>
        name.foldl (fun key c => key * 256 + c.toNat) 0 := (List.map_map ..).symm
  rw [hmap] at hkeys
  exact hkeys.of_map

theorem capitals_ne_label (id : UInt8) : capitals (info id) ≠ capitals labelInfo := fun h => by
  have hnot := (List.nodup_cons.mp nodup_capitals).1
  exact hnot (h ▸ List.mem_map_of_mem (info_mem_table id))

theorem nodup_capitals_table : (table.toList.map capitals).Nodup :=
  (List.nodup_cons.mp nodup_capitals).2

theorem capitals_table_inj {i j : Nat} (hi : i < table.size) (hj : j < table.size)
    (h : capitals table[i] = capitals table[j]) : i = j := by
  have hlen : (table.toList.map capitals).length = table.size := by
    rw [List.length_map, Array.length_toList]
  rw [← hlen] at hi hj
  have hget : (table.toList.map capitals)[i] = (table.toList.map capitals)[j] := by
    rw [List.getElem_map, List.getElem_map, Array.getElem_toList, Array.getElem_toList]
    exact h
  exact nodup_capitals_table.getElem_inj_iff.mp hget

/-- **An id is known by its mnemonic.** -/
theorem capitals_injective : Function.Injective fun id => capitals (info id) := fun a b h => by
  refine UInt8.toNat_inj.mp (capitals_table_inj ?_ ?_ h)
  · rw [size_table]
    exact a.toNat_lt
  · rw [size_table]
    exact b.toNat_lt

/-- **The mnemonic of an id leads back to it.** -/
theorem idOf?_mnemonic (id : UInt8) : idOf? (info id).mnemonic.toList = some id := by
  have hlt : id.toNat < table.size := by
    rw [size_table]
    exact id.toNat_lt
  have hfind : (table.findIdx? fun row => row.mnemonic.toList.map Char.toUpper
      == (info id).mnemonic.toList.map Char.toUpper) = some id.toNat := by
    rw [Array.findIdx?_eq_some_iff_getElem]
    refine ⟨hlt, beq_self_eq_true _, fun j hj heq => ?_⟩
    exact absurd (capitals_table_inj (hj.trans hlt) hlt (beq_iff_eq.mp heq)) hj.ne
  unfold idOf?
  rw [hfind]
  exact congrArg some UInt8.ofNat_toNat

/-! ## Mnemonics as words -/

/-- Whether a character is a visible one of ASCII. -/
def isVisible (c : Char) : Bool := '!' ≤ c && c ≤ '~'

/-- Every mnemonic is made of visible characters, and opens no comment. -/
theorem visible_mnemonic : ∀ row ∈ table.toList,
    row.mnemonic.toList.all isVisible = true
      ∧ row.mnemonic.toList.head?.any (fun c => c ≠ '#' ∧ c ≠ '/') = true := by
  decide +kernel

theorem isBlank_of_isVisible {c : Char} (h : isVisible c = true) : isBlank c = false := by
  unfold isVisible at h
  rw [Bool.and_eq_true, decide_eq_true_iff, decide_eq_true_iff] at h
  have hmin : 33 ≤ c.toNat := h.1
  have hmax : c.toNat ≤ 126 := h.2
  have hle : ∀ a b : Char, a ≤ b ↔ a.toNat ≤ b.toNat := fun a b => Iff.rfl
  have heq : ∀ a : Char, (c == a) = decide (c.toNat = a.toNat) := fun a => by
    rw [Bool.eq_iff_iff, beq_iff_eq, decide_eq_true_iff, Char.toNat_inj]
  unfold isBlank
  simp only [heq, hle, Bool.or_eq_false_iff, Bool.and_eq_false_iff, decide_eq_false_iff_not]
  simp only [Char.reduceToNat]
  omega

theorem isWord_mnemonic (id : UInt8) : IsWord (info id).mnemonic.toList := by
  obtain ⟨hvisible, hhead⟩ := visible_mnemonic _ (info_mem_table id)
  refine ⟨fun hnil => ?_, fun c hc => isBlank_of_isVisible (List.all_eq_true.mp hvisible c hc)⟩
  rw [hnil] at hhead
  exact nomatch hhead

theorem isComment_mnemonic (id : UInt8) (rest : List Char) :
    Listing.isComment ((info id).mnemonic.toList ++ rest) = false := by
  obtain ⟨-, hhead⟩ := visible_mnemonic _ (info_mem_table id)
  cases hname : (info id).mnemonic.toList with
  | nil => exact absurd hname (isWord_mnemonic id).ne_nil
  | cons c cs =>
    rw [hname] at hhead
    obtain ⟨hhash, hslash⟩ := of_decide_eq_true hhead
    rw [List.cons_append]
    unfold Listing.isComment
    split
    · rename_i heq
      exact absurd (List.cons.inj heq).1 hhash
    · rename_i heq
      exact absurd (List.cons.inj heq).1 hslash
    · rfl

end FieldMap.InstructionSet
