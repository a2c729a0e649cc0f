import FieldMap.Archive
import FieldMap.Proofs.Readers
import FieldMap.Proofs.Words
import Mathlib.Tactic.MkIffOfInductiveProp
import Mathlib.Tactic.SplitIfs

/-!
# Names in archives

A name takes one byte for each of its characters, and zero bytes fill up the field that it is
stored in. It is read back from there if its characters are those of ASCII, none of them ends
it early and none is taken off as a blank (`IsStorable.storedName_nameField`).

A search for a name ignores case. Two names are the same to it if they agree letter by letter,
where a small letter of ASCII agrees with its capital as well (`SameLetters`). Beyond ASCII, a
character agrees with itself only.
-/

namespace FieldMap

namespace Text

/-! ## ASCII -/

/-- **The bytes of an ASCII text**, one for each character. -/
def asciiBytes (cs : List Char) : List UInt8 := cs.map fun c => UInt8.ofNat c.toNat

theorem toNat_asciiByte {c : Char} (h : c.toNat < 128) : (UInt8.ofNat c.toNat).toNat = c.toNat := by
  rw [UInt8.toNat_ofNat', Nat.mod_eq_of_lt (by omega)]

/-- **An ASCII text is read back** from its bytes. -/
theorem decodeLossy_asciiBytes {cs : List Char} (h : ∀ c ∈ cs, c.toNat < 128) :
    Utf8.decodeLossy (asciiBytes cs) = cs := by
  induction cs with
  | nil => rfl
  | cons c cs ih =>
    obtain ⟨hc, hcs⟩ := List.forall_mem_cons.mp h
    have hlow : UInt8.ofNat c.toNat < 0x80 := by
      rw [UInt8.lt_iff_toNat_lt, toNat_asciiByte hc]
      exact hc
    have hstart : Utf8.start (UInt8.ofNat c.toNat) = ([c], none) := by
      unfold Utf8.start
      rw [if_pos hlow, toNat_asciiByte hc, Char.ofNat_toNat]
    show (Utf8.start _).1 ++ Utf8.decodeFrom (Utf8.start _).2 (asciiBytes cs) = _
    rw [hstart]
    exact congrArg (c :: ·) (ih hcs)

/-! ## Letters -/

/-- **A letter of ASCII and its capital**, which stands 32 places before it. -/
def IsCapitalOf (capital small : Char) : Prop :=
  'a' ≤ small ∧ small ≤ 'z' ∧ capital.toNat + 32 = small.toNat

/-- **Two characters that differ at most in case.** -/
def SameLetter (c d : Char) : Prop := c = d ∨ IsCapitalOf c d ∨ IsCapitalOf d c

/-- **Two names that differ at most in case.** -/
def SameLetters (a b : String) : Prop := List.Forall₂ SameLetter a.toList b.toList

instance (capital small : Char) : Decidable (IsCapitalOf capital small) :=
  inferInstanceAs (Decidable (_ ∧ _))

instance : DecidableRel SameLetter := fun _ _ => inferInstanceAs (Decidable (_ ∨ _))

instance : DecidableRel SameLetters := fun a b =>
  inferInstanceAs (Decidable (List.Forall₂ SameLetter a.toList b.toList))

theorem toNat_toUpper (c : Char) :
    c.toUpper.toNat = if 'a' ≤ c ∧ c ≤ 'z' then c.toNat - 32 else c.toNat := by
  unfold Char.toUpper
  split_ifs with hsmall hlow hlow
  · have hbounds : 97 ≤ c.toNat ∧ c.toNat ≤ 122 := hsmall
    show (c.val + ('A'.val - 'a'.val)).toNat = _
    rw [UInt32.toNat_add]
    show (c.toNat + 4294967264) % 4294967296 = _
    omega
  · exact absurd hsmall hlow
  · exact absurd hlow hsmall
  · rfl

/-- **Two characters have the same capital** if they are the same letter. -/
theorem toUpper_eq_toUpper {c d : Char} : c.toUpper = d.toUpper ↔ SameLetter c d := by
  have hle : ∀ c d : Char, c ≤ d ↔ c.toNat ≤ d.toNat := fun _ _ => Iff.rfl
  have ha : 'a'.toNat = 97 := rfl
  have hz : 'z'.toNat = 122 := rfl
  unfold SameLetter IsCapitalOf
  rw [← Char.toNat_inj, ← Char.toNat_inj, toNat_toUpper, toNat_toUpper]
  simp only [hle, ha, hz]
  split_ifs <;> omega

/-- **Two names have the same capitals** if they have the same letters. -/
theorem map_toUpper_eq {a b : String} :
    a.map Char.toUpper = b.map Char.toUpper ↔ SameLetters a b := by
  rw [← String.toList_inj, String.toList_map, String.toList_map, List.map_eq_map_iff_forall₂]
  simp only [toUpper_eq_toUpper]
  rfl

end Text

namespace Archive

/-! ## Names that can be stored -/

/-- **A name that the field of a name can hold.** -/
@[mk_iff]
structure IsStorable (name : String) : Prop where
  ascii : ∀ c ∈ name.toList, c.toNat < 128
  noZero : '\u0000' ∉ name.toList
  first : ∀ c ∈ name.toList.head?, Text.isBlank c = false
  last : ∀ c ∈ name.toList.getLast?, Text.isBlank c = false
  fits : name.length ≤ nameLength

instance : DecidablePred IsStorable := fun name =>
  decidable_of_iff ((name.toList.all fun c => decide (c.toNat < 128)) ∧ '\u0000' ∉ name.toList
      ∧ (name.toList.head?.all fun c => !Text.isBlank c)
      ∧ (name.toList.getLast?.all fun c => !Text.isBlank c) ∧ name.length ≤ nameLength) <| by
    simp only [isStorable_iff, List.all_eq_true, Option.all_eq_true, Option.mem_def,
      decide_eq_true_iff, Bool.not_eq_true']

/-- **The field of a name**: its bytes, and zero bytes up to the end. -/
def nameField (name : String) : List UInt8 :=
  Text.asciiBytes name.toList ++ List.replicate (nameLength - name.length) 0

namespace IsStorable

variable {name : String}

theorem length_nameField (h : IsStorable name) : (nameField name).length = nameLength := by
  unfold nameField Text.asciiBytes
  rw [List.length_append, List.length_map, List.length_replicate, String.length_toList]
  exact Nat.add_sub_cancel' h.fits

/-- **A name is read back** from its field. -/
theorem storedName_nameField (h : IsStorable name) :
    storedName (nameField name).toArray = name := by
  have hbytes : ∀ b ∈ Text.asciiBytes name.toList, (b != 0) = true := by
    refine List.forall_mem_map.mpr fun c hc => bne_iff_ne.mpr fun hzero => h.noZero ?_
    have hnat := congrArg UInt8.toNat hzero
    rw [Text.toNat_asciiByte (h.ascii c hc)] at hnat
    obtain rfl : c = '\u0000' := Char.toNat_inj.mp hnat
    exact hc
  have hname : (nameField name).takeWhile (· != 0) = Text.asciiBytes name.toList := by
    unfold nameField
    rw [List.takeWhile_append_of_pos hbytes, List.takeWhile_replicate]
    exact List.append_nil _
  unfold storedName
  rw [List.toList_toArray, hname, Text.decodeLossy_asciiBytes h.ascii,
    Text.trim_eq_self h.first h.last, String.ofList_toList]

end IsStorable

end Archive

end FieldMap
