import FieldMap.Proofs.NormalForm
import FieldMap.Proofs.SymbolicForm

/-!
# What resolving the labels of a script gives

Resolving looks at three things that can be wrong, in this order: a label whose number
another label in front of it has (`Redefines`), a jump that names no label, and a jump
whose distance to its label does not fit (`Offends`). The first label that is wrong
decides before any jump is looked at, then the first jump. If nothing is wrong, the
labels are dropped and each jump holds the distance to its label, which in the bytecode
without labels leads to what follows the label (`IsResolved`).

Positions in an error count labels, positions in the result do not; `unlabelledIndex`
leads from the first to the second. Bytes are not affected by this, since labels take up
none (`startAt_unlabelledIndex`).
-/

namespace FieldMap.Script

/-! ## Labels and jumps by position -/

/-- **A label whose number stands in front of it already.** -/
def Redefines (script : Script) (i number : Nat) : Prop :=
  script[i]? = some (.label number) ∧ .label number ∈ script.take i

/-- The label at a position has the number that a jump names. -/
def Defines (script : Script) (k : Nat) (number : Int) : Prop :=
  ∃ n : Nat, script[k]? = some (.label n) ∧ (n : Int) = number

/-- **The distance from a jump to a label**, both given by position: back from the start
of the jump, or on from the byte at which its distance is stored. -/
def DistanceBetween (script : Script) (i k : Nat) (distance : Int) : Prop :=
  ∃ instruction offset, script[i]? = some instruction
    ∧ instruction.jumpOffset? = some offset
    ∧ distance = if instruction.isBackJump then (script.startAt i : Int) - script.startAt k
        else (script.startAt k : Int) - script.startAt i - offset

/-- **What is wrong with the jump at a position**, as the error that says so. -/
inductive Offends (script : Script) (i : Nat) : CodecError → Prop
  /-- It names no label. -/
  | undefined {instruction : Instruction} {index : Nat} {number : Int}
      (hget : script[i]? = some instruction)
      (hvalue : instruction.jumpValue? = some (index, number))
      (hnone : ∀ k, ¬script.Defines k number) : Offends script i (.jumpOffBoundary i number)
  /-- Its distance does not fit the operand that is to hold it. -/
  | outOfRange {instruction : Instruction} {index k : Nat} {number distance : Int}
      {operand : Operand} (hget : script[i]? = some instruction)
      (hvalue : instruction.jumpValue? = some (index, number))
      (hlabel : script.Defines k number) (hdistance : script.DistanceBetween i k distance)
      (hoperand : instruction.operands[index]? = some operand)
      (hrange : distance < 0 ∨ operand.format.max < distance) :
      Offends script i (.jumpOutOfRange i distance)

/-- **Where a position of a script is found without its labels.** -/
def unlabelledIndex (script : Script) (i : Nat) : Nat := (unlabelled (script.take i)).length

/-- **What follows a label**: the first position from its own on at which no label
stands, or the end. -/
structure IsBehindLabels (script : Script) (k p : Nat) : Prop where
  le : k ≤ p
  le_length : p ≤ script.length
  label_between : ∀ j, k ≤ j → j < p → ∃ n, script[j]? = some (.label n)
  isLabel_eq_false : ∀ instruction, script[p]? = some instruction → instruction.isLabel = false

/-- **A script whose labels are resolved.** -/
structure IsResolved (script result : Script) : Prop where
  /-- Only the labels are dropped. -/
  length_eq : result.length = (unlabelled script).length
  /-- An instruction that is neither a label nor a jump stays as it is. -/
  unchanged : ∀ (i : Nat) (instruction : Instruction), script[i]? = some instruction →
    instruction.isLabel = false → instruction.jumpValue? = none →
      result[script.unlabelledIndex i]? = some instruction
  /-- A jump holds the distance to the label that it named, and nothing else of it
  changes. It leads to what follows the label. -/
  jump_resolved : ∀ (i index : Nat) (instruction : Instruction) (number : Int),
    script[i]? = some instruction → instruction.jumpValue? = some (index, number) →
      ∃ (k p : Nat) (distance : Int), script.Defines k number
        ∧ script.DistanceBetween i k distance
        ∧ result[script.unlabelledIndex i]? = some (instruction.setValue index distance)
        ∧ script.IsBehindLabels k p
        ∧ result.JumpsTo (script.unlabelledIndex i) (result.startAt (script.unlabelledIndex p))

theorem distanceBetween_iff {script : Script} {i index k : Nat} {instruction : Instruction}
    {number distance : Int} (hget : script[i]? = some instruction)
    (hvalue : instruction.jumpValue? = some (index, number)) :
    script.DistanceBetween i k distance
      ↔ distance = instruction.distanceTo (script.startAt i) (script.startAt k) := by
  obtain ⟨offset, hoffset⟩ : ∃ offset, instruction.jumpOffset? = some offset :=
    ⟨_, Option.map_eq_some_iff.mpr ⟨index, (Instruction.jumpValue?_eq_some.mp hvalue).1, rfl⟩⟩
  unfold DistanceBetween Instruction.distanceTo
  rw [hoffset, Option.getD_some]
  constructor
  · rintro ⟨other, o, hother, ho, hdistance⟩
    obtain rfl := Option.some.inj (hget.symm.trans hother)
    rwa [Option.some.inj (hoffset.symm.trans ho)]
  · exact fun hdistance => ⟨instruction, offset, hget, hoffset, hdistance⟩

section Offends

variable {script : Script} {i : Nat} {e : CodecError}

theorem Offends.exists_getElem? (h : script.Offends i e) :
    ∃ instruction, script[i]? = some instruction := by
  cases h with
  | undefined hget | outOfRange hget => exact ⟨_, hget⟩

/-- Only jumps can be wrong. -/
theorem not_offends_of_not_jump {instruction : Instruction}
    (hget : script[i]? = some instruction) (hvalue : instruction.jumpValue? = none)
    (e : CodecError) : ¬script.Offends i e := fun h => by
  cases h with
  | undefined hother hjump | outOfRange hother hjump =>
    obtain rfl := Option.some.inj (hget.symm.trans hother)
    exact nomatch hvalue.symm.trans hjump

/-- What is wrong with a jump, as resolving finds it out. -/
theorem offends_iff {index : Nat} {instruction : Instruction} {number : Int}
    (hget : script[i]? = some instruction)
    (hvalue : instruction.jumpValue? = some (index, number)) :
    script.Offends i e
      ↔ ((∀ k, ¬script.Defines k number) ∧ e = .jumpOffBoundary i number)
        ∨ ∃ k distance, script.Defines k number
          ∧ distance = instruction.distanceTo (script.startAt i) (script.startAt k)
          ∧ ¬(0 ≤ distance
            ∧ distance ≤ (instruction.operands[index]?.map fun operand => operand.format.max).getD 0)
          ∧ e = .jumpOutOfRange i distance := by
  obtain ⟨-, operand, hoperand, -⟩ := Instruction.jumpValue?_eq_some.mp hvalue
  rw [hoperand, Option.map_some, Option.getD_some]
  constructor
  · intro h
    cases h with
    | undefined hother hjump hnone =>
      obtain rfl := Option.some.inj (hget.symm.trans hother)
      obtain ⟨rfl, rfl⟩ := Prod.mk.inj (Option.some.inj (hvalue.symm.trans hjump))
      exact .inl ⟨hnone, rfl⟩
    | outOfRange hother hjump hlabel hdistance hother' hrange =>
      obtain rfl := Option.some.inj (hget.symm.trans hother)
      obtain ⟨rfl, rfl⟩ := Prod.mk.inj (Option.some.inj (hvalue.symm.trans hjump))
      obtain rfl := Option.some.inj (hoperand.symm.trans hother')
      refine .inr ⟨_, _, hlabel, (distanceBetween_iff hget hvalue).mp hdistance, ?_, rfl⟩
      omega
  · rintro (⟨hnone, rfl⟩ | ⟨k, distance, hlabel, hdistance, hrange, rfl⟩)
    · exact .undefined hget hvalue hnone
    · refine .outOfRange hget hvalue hlabel ((distanceBetween_iff hget hvalue).mpr hdistance)
        hoperand ?_
      omega

end Offends

/-! ## Labels that are redefined -/

/-- A label whose number stands in front of it or has been seen. -/
def RedefinesAfter (seen : List Nat) (script : Script) (i number : Nat) : Prop :=
  script[i]? = some (.label number) ∧ (number ∈ seen ∨ .label number ∈ script.take i)

theorem redefinesAfter_nil {script : Script} {i number : Nat} :
    RedefinesAfter [] script i number ↔ script.Redefines i number := by
  unfold RedefinesAfter Redefines
  simp only [List.not_mem_nil, false_or]

theorem redefinesAfter_label_succ {seen : List Nat} {rest : Script} {i n number : Nat} :
    RedefinesAfter seen (.label n :: rest) (i + 1) number
      ↔ RedefinesAfter (n :: seen) rest i number := by
  unfold RedefinesAfter
  rw [List.getElem?_cons_succ, List.take_succ_cons, List.mem_cons, List.mem_cons,
    Instruction.label.injEq, or_left_comm, or_assoc]

theorem redefinesAfter_cons_succ {instruction : Instruction} (h : instruction.isLabel = false)
    {seen : List Nat} {rest : Script} {i number : Nat} :
    RedefinesAfter seen (instruction :: rest) (i + 1) number
      ↔ RedefinesAfter seen rest i number := by
  have hne : Instruction.label number ≠ instruction := fun heq => by
    rw [← heq] at h
    exact nomatch h
  unfold RedefinesAfter
  rw [List.getElem?_cons_succ, List.take_succ_cons, List.mem_cons, or_iff_right hne]

theorem redefinesAfter_zero {instruction : Instruction} {seen : List Nat} {rest : Script}
    {number : Nat} :
    RedefinesAfter seen (instruction :: rest) 0 number
      ↔ instruction = .label number ∧ number ∈ seen := by
  unfold RedefinesAfter
  simp only [List.getElem?_cons_zero, Option.some.injEq, List.take_zero, List.not_mem_nil, or_false]

/-- The first of a property that fails for the first entry is one further on than the
first among the rest. -/
theorem exists_first_succ {P Q : Nat → Nat → Prop} (hzero : ∀ n, ¬P 0 n)
    (hsucc : ∀ i n, P (i + 1) n ↔ Q i n) {R : Nat → Nat → Prop} :
    (∃ i n, P i n ∧ (∀ j < i, ∀ m, ¬P j m) ∧ R i n)
      ↔ ∃ i n, Q i n ∧ (∀ j < i, ∀ m, ¬Q j m) ∧ R (i + 1) n := by
  constructor
  · rintro ⟨i, n, hP, hfirst, hR⟩
    cases i with
    | zero => exact absurd hP (hzero n)
    | succ i =>
      refine ⟨i, n, (hsucc i n).mp hP, fun j hj m hQ => ?_, hR⟩
      exact hfirst (j + 1) (Nat.succ_lt_succ hj) m ((hsucc j m).mpr hQ)
  · rintro ⟨i, n, hQ, hfirst, hR⟩
    refine ⟨i + 1, n, (hsucc i n).mpr hQ, fun j hj m hP => ?_, hR⟩
    cases j with
    | zero => exact hzero m hP
    | succ j => exact hfirst j (Nat.lt_of_succ_lt_succ hj) m ((hsucc j m).mp hP)

/-- **The first label that is redefined** decides. The induction keeps the numbers that
have been seen, as the search does. -/
theorem redefinition?_placedFrom {seen : List Nat} {start index : Nat} {script : Script}
    {e : CodecError} :
    redefinition? seen (placedFrom start index script) = some e
      ↔ ∃ i number, RedefinesAfter seen script i number
        ∧ (∀ j < i, ∀ n, ¬RedefinesAfter seen script j n)
        ∧ e = .labelRedefined (index + i) number := by
  induction script using label_induction generalizing seen start index with
  | nil =>
    refine iff_of_false (fun h => Option.some_ne_none _ h.symm) ?_
    rintro ⟨i, number, ⟨hget, -⟩, -⟩
    exact Option.some_ne_none _ hget.symm
  | label n rest ih =>
    have hhead : redefinition? seen (placedFrom start index (.label n :: rest))
        = if seen.contains n then some (.labelRedefined index n)
          else redefinition? (n :: seen) (placedFrom start (index + 1) rest) := rfl
    rw [hhead]
    split_ifs with hseen
    · have hmem := List.contains_iff_mem.mp hseen
      have hzero : RedefinesAfter seen (.label n :: rest) 0 n := redefinesAfter_zero.mpr ⟨rfl, hmem⟩
      constructor
      · rintro heq
        exact ⟨0, n, hzero, fun j hj => absurd hj j.not_lt_zero, (Option.some.inj heq).symm⟩
      · rintro ⟨i, number, hi, hfirst, rfl⟩
        cases i with
        | zero =>
          obtain ⟨heq, -⟩ := redefinesAfter_zero.mp hi
          rw [Instruction.label.inj heq]
          rfl
        | succ i => exact absurd hzero (hfirst 0 i.succ_pos n)
    · have hzero : ∀ number, ¬RedefinesAfter seen (.label n :: rest) 0 number := fun number h => by
        obtain ⟨heq, hmem⟩ := redefinesAfter_zero.mp h
        rw [← Instruction.label.inj heq] at hmem
        exact hseen (List.contains_iff_mem.mpr hmem)
      rw [ih, exists_first_succ hzero (fun i number => redefinesAfter_label_succ)]
      simp only [Nat.add_assoc, Nat.add_comm 1]
  | cons instruction rest h ih =>
    have hhead : redefinition? seen (placedFrom start index (instruction :: rest))
        = redefinition? seen (placedFrom (start + instruction.length) (index + 1) rest) := by
      cases instruction with
      | label number => exact absurd h (by simp [Instruction.isLabel])
      | _ => rfl
    have hzero : ∀ number, ¬RedefinesAfter seen (instruction :: rest) 0 number := fun number hi => by
      rw [(redefinesAfter_zero.mp hi).1] at h
      exact Bool.noConfusion h
    rw [hhead, ih, exists_first_succ hzero (fun i number => redefinesAfter_cons_succ h)]
    simp only [Nat.add_assoc, Nat.add_comm 1]

theorem redefinition?_eq_some {script : Script} {e : CodecError} :
    redefinition? [] script.placed = some e
      ↔ ∃ i number, script.Redefines i number ∧ (∀ j < i, ∀ n, ¬script.Redefines j n)
        ∧ e = .labelRedefined i number := by
  rw [placed_eq, redefinition?_placedFrom]
  simp only [redefinesAfter_nil, Nat.zero_add]

theorem redefinition?_eq_none_iff {script : Script} :
    redefinition? [] script.placed = none ↔ ∀ i number, ¬script.Redefines i number := by
  constructor
  · intro h i
    -- a label that is redefined would have a first one like it, and that an error
    induction i using Nat.strong_induction_on with
    | _ i ih =>
      intro number hi
      exact nomatch h.symm.trans (redefinition?_eq_some.mpr ⟨i, number, hi, ih, rfl⟩)
  · intro hnone
    cases h : redefinition? [] script.placed with
    | none => rfl
    | some e =>
      obtain ⟨i, number, hi, -⟩ := redefinition?_eq_some.mp h
      exact absurd hi (hnone i number)

/-! ## The places of labels -/

/-- A label with the byte that it marks. -/
theorem mem_labelPlaces {script : Script} {number target : Nat} :
    (number, target) ∈ labelPlaces script.placed
      ↔ ∃ k : Nat, script[k]? = some (.label number) ∧ script.startAt k = target := by
  rw [labelPlaces, List.mem_filterMap]
  constructor
  · rintro ⟨place, hplace, hlabel⟩
    obtain ⟨k, hk⟩ := List.mem_iff_getElem?.mp hplace
    rw [getElem?_placed, Option.map_eq_some_iff] at hk
    obtain ⟨instruction, hget, rfl⟩ := hk
    cases instruction with
    | label n =>
      obtain ⟨rfl, rfl⟩ := Prod.mk.inj (Option.some.inj hlabel)
      exact ⟨k, hget, rfl⟩
    | _ => exact absurd hlabel.symm (Option.some_ne_none _)
  · rintro ⟨k, hget, rfl⟩
    refine ⟨⟨.label number, script.startAt k, k⟩, List.mem_iff_getElem?.mpr ⟨k, ?_⟩, rfl⟩
    rw [getElem?_placed, hget]
    rfl

section Unique

variable {script : Script} (hunique : ∀ i number, ¬script.Redefines i number)

include hunique

/-- Labels that are not redefined have different numbers. -/
theorem nodup_labelPlaces : ((labelPlaces script.placed).map Prod.fst).Nodup :=
  (redefinition?_eq_none.mp (redefinition?_eq_none_iff.mpr hunique)).1

/-- **A number names the byte at which its label stands.** -/
theorem labelPlace?_eq_some_iff {number : Int} {target : Nat} :
    labelPlace? (labelPlaces script.placed) number = some target
      ↔ ∃ k, script.Defines k number ∧ script.startAt k = target := by
  rw [labelPlace?_iff_mem (nodup_labelPlaces hunique)]
  unfold Defines
  simp only [mem_labelPlaces]
  constructor
  · rintro ⟨n, ⟨k, hget, htarget⟩, hnumber⟩
    exact ⟨k, ⟨n, hget, hnumber⟩, htarget⟩
  · rintro ⟨k, ⟨n, hget, hnumber⟩, htarget⟩
    exact ⟨n, ⟨k, hget, htarget⟩, hnumber⟩

theorem labelPlace?_eq_none_iff {number : Int} :
    labelPlace? (labelPlaces script.placed) number = none
      ↔ ∀ k, ¬script.Defines k number := by
  rw [Option.eq_none_iff_forall_ne_some]
  simp only [ne_eq, labelPlace?_eq_some_iff hunique, not_exists, not_and]
  exact ⟨fun h k hk => h _ k hk rfl, fun h _ k hk => absurd hk (h k)⟩

/-! ## The first jump that offends -/

theorem resolveJump_eq_error {i : Nat} {instruction : Instruction} {e : CodecError}
    (hget : script[i]? = some instruction) :
    resolveJump (labelPlaces script.placed) ⟨instruction, script.startAt i, i⟩ = .error e
      ↔ script.Offends i e := by
  unfold resolveJump
  dsimp only
  cases hvalue : instruction.jumpValue? with
  | none => exact iff_of_false (fun h => nomatch h) (not_offends_of_not_jump hget hvalue e)
  | some jump =>
    obtain ⟨index, number⟩ := jump
    rw [offends_iff hget hvalue]
    dsimp only
    cases hplace : labelPlace? (labelPlaces script.placed) number with
    | none =>
      have hnone := (labelPlace?_eq_none_iff hunique).mp hplace
      rw [Except.error.injEq, eq_comm]
      refine ⟨fun h => .inl ⟨hnone, h⟩, ?_⟩
      rintro (⟨-, rfl⟩ | ⟨k, -, hlabel, -⟩)
      · rfl
      · exact absurd hlabel (hnone k)
    | some target =>
      have hplaces : ∀ k, script.Defines k number → script.startAt k = target := fun k hk =>
        Option.some.inj (((labelPlace?_eq_some_iff hunique).mpr ⟨k, hk, rfl⟩).symm.trans hplace)
      obtain ⟨k, hlabel, rfl⟩ := (labelPlace?_eq_some_iff hunique).mp hplace
      dsimp only
      split_ifs with hfits
      · refine iff_of_false (fun h => nomatch h) ?_
        rintro (⟨hnone, -⟩ | ⟨k', _, hk', rfl, hrange, -⟩)
        · exact hnone k hlabel
        · rw [hplaces k' hk'] at hrange
          exact hrange hfits
      · rw [Except.error.injEq, eq_comm]
        refine ⟨fun h => .inr ⟨k, _, hlabel, rfl, hfits, h⟩, ?_⟩
        rintro (⟨hnone, -⟩ | ⟨k', _, hk', rfl, -, rfl⟩)
        · exact absurd hlabel (hnone k)
        · rw [hplaces k' hk']

/-- **The first jump that offends** decides the error, if no label is redefined. -/
theorem resolveLabels_eq_error {e : CodecError} :
    script.resolveLabels = .error e
      ↔ ∃ i, script.Offends i e ∧ ∀ j < i, ∀ e', ¬script.Offends j e' := by
  have hlabel : ∀ place : PlacedInstruction, (!place.instruction.isLabel) = false →
      ∃ result, resolveJump (labelPlaces script.placed) place = .ok result := fun place h => by
    rw [Bool.not_eq_false'] at h
    exact ⟨_, resolveJump_eq_ok.mpr (.inl ⟨Instruction.jumpValue?_eq_none_of_isLabel h, rfl⟩)⟩
  have hresolve : script.resolveLabels
      = (script.placed.filter fun place => !place.instruction.isLabel).mapM
        (resolveJump (labelPlaces script.placed)) := by
    unfold resolveLabels
    rw [redefinition?_eq_none_iff.mpr hunique]
  rw [hresolve, List.mapM_filter_eq_error hlabel, List.mapM_eq_error]
  simp only [Except.exists_eq_ok_iff, getElem?_placed, Option.map_eq_some_iff]
  constructor
  · rintro ⟨i, _, ⟨instruction, hget, rfl⟩, herror, hfront⟩
    refine ⟨i, (resolveJump_eq_error hunique hget).mp herror, fun j hj e' hoffends => ?_⟩
    obtain ⟨other, hother⟩ := hoffends.exists_getElem?
    exact hfront j hj _ ⟨other, hother, rfl⟩ e' ((resolveJump_eq_error hunique hother).mpr hoffends)
  · rintro ⟨i, hoffends, hfirst⟩
    obtain ⟨instruction, hget⟩ := hoffends.exists_getElem?
    refine ⟨i, _, ⟨instruction, hget, rfl⟩, (resolveJump_eq_error hunique hget).mpr hoffends, ?_⟩
    rintro j hj _ ⟨other, hother, rfl⟩ e' he'
    exact hfirst j hj e' ((resolveJump_eq_error hunique hother).mp he')

end Unique

/-! ## Without the labels -/

theorem byteLength_unlabelled (script : Script) :
    byteLength (unlabelled script) = byteLength script := by
  induction script using label_induction with
  | nil => rfl
  | label number rest ih =>
    rw [unlabelled_label, ih, byteLength_cons]
    exact (Nat.zero_add _).symm
  | cons instruction rest h ih => rw [unlabelled_cons h, byteLength_cons, byteLength_cons, ih]

theorem take_unlabelledIndex (script : Script) (i : Nat) :
    (unlabelled script).take (script.unlabelledIndex i) = unlabelled (script.take i) := by
  conv_lhs => rw [← List.take_append_drop i script, unlabelled_concat]
  rw [List.take_append_drop, unlabelledIndex, List.take_left]

/-- **Labels take up no bytes**, so that nothing moves when they are dropped. -/
theorem startAt_unlabelledIndex (script : Script) (i : Nat) :
    (unlabelled script).startAt (script.unlabelledIndex i) = script.startAt i := by
  rw [startAt, take_unlabelledIndex, byteLength_unlabelled, startAt]

theorem getElem?_unlabelledIndex {script : Script} {i : Nat} {instruction : Instruction}
    (hget : script[i]? = some instruction) (hlabel : instruction.isLabel = false) :
    (unlabelled script)[script.unlabelledIndex i]? = some instruction := by
  obtain ⟨hlt, rfl⟩ := List.getElem?_eq_some_iff.mp hget
  have hsplit : unlabelled script
      = unlabelled (script.take i) ++ script[i] :: unlabelled (script.drop (i + 1)) := by
    rw [← unlabelled_cons hlabel, ← unlabelled_concat, ← List.drop_eq_getElem_cons hlt,
      List.take_append_drop]
  rw [hsplit, unlabelledIndex, List.getElem?_append_right le_rfl, Nat.sub_self]
  rfl

theorem unlabelledIndex_succ_of_label {script : Script} {i n : Nat}
    (hget : script[i]? = some (.label n)) :
    script.unlabelledIndex (i + 1) = script.unlabelledIndex i := by
  rw [unlabelledIndex, List.take_add_one, hget, unlabelled_concat, List.length_append]
  rfl

/-- Behind every position labels end somewhere, at the latest with the script. -/
theorem exists_isBehindLabels {script : Script} {k : Nat} (hk : k ≤ script.length) :
    ∃ p, script.IsBehindLabels k p ∧ script.unlabelledIndex p = script.unlabelledIndex k := by
  induction hk using Nat.decreasingInduction with
  | self =>
    refine ⟨script.length, ⟨le_rfl, le_rfl, fun j hk hj => absurd hk hj.not_ge, ?_⟩, rfl⟩
    intro instruction hget
    rw [List.getElem?_eq_none le_rfl] at hget
    exact nomatch hget
  | of_succ k hk ih =>
    obtain ⟨p, hp, hindex⟩ := ih
    cases hlabel : script[k].isLabel with
    | false =>
      refine ⟨k, ⟨le_rfl, hk.le, fun j hk hj => absurd hk hj.not_ge, ?_⟩, rfl⟩
      intro instruction hget
      obtain ⟨-, rfl⟩ := List.getElem?_eq_some_iff.mp hget
      exact hlabel
    | true =>
      obtain ⟨n, hn⟩ : ∃ n, script[k]? = some (.label n) := by
        rw [List.getElem?_eq_getElem hk]
        cases hget : script[k] with
        | label n => exact ⟨n, rfl⟩
        | _ =>
          rw [hget] at hlabel
          exact nomatch hlabel
      refine ⟨p, ⟨k.le_succ.trans hp.le, hp.le_length, fun j hkj hjp => ?_, hp.isLabel_eq_false⟩,
        hindex.trans (unlabelledIndex_succ_of_label hn)⟩
      rcases hkj.eq_or_lt with rfl | hlt
      · exact ⟨n, hn⟩
      · exact hp.label_between j hlt hjp

/-! ## What resolving gives -/

section Resolved

variable {script result : Script} (h : script.resolveLabels = .ok result)

include h

theorem not_redefines_of_resolveLabels (i number : Nat) : ¬script.Redefines i number := by
  unfold resolveLabels at h
  cases hnone : redefinition? [] script.placed with
  | none => exact redefinition?_eq_none_iff.mp hnone i number
  | some e =>
    rw [hnone] at h
    exact nomatch h

theorem not_offends_of_resolveLabels (i : Nat) (e : CodecError) : ¬script.Offends i e := by
  have hunique := not_redefines_of_resolveLabels h
  -- a jump that offends would have a first one like it, and that decides the error
  induction i using Nat.strong_induction_on generalizing e with
  | _ i ih =>
    intro hi
    exact nomatch h.symm.trans ((resolveLabels_eq_error hunique).mpr ⟨i, hi, ih⟩)

/-- Each instruction is found where it was, apart from the labels. -/
theorem startAt_of_resolveLabels (i : Nat) :
    result.startAt (script.unlabelledIndex i) = script.startAt i := by
  rw [← startAt_unlabelledIndex script, startAt, startAt, byteLength, byteLength, List.map_take,
    List.map_take, map_length_of_resolveLabels h]

theorem resolves_of_resolveLabels {i : Nat} {instruction : Instruction}
    (hget : script[i]? = some instruction) (hlabel : instruction.isLabel = false) :
    ∃ resolved, result[script.unlabelledIndex i]? = some resolved
      ∧ Resolves (labelPlaces script.placed) (instruction, script.startAt i) resolved := by
  obtain ⟨hlt, hinstruction⟩ := List.getElem?_eq_some_iff.mp (getElem?_unlabelledIndex hget hlabel)
  have hpairs := forall₂_placed h
  have hplace := hpairs.get hlt (hpairs.length_eq ▸ hlt)
  have hplaced := List.getElem?_eq_getElem (hpairs.length_eq ▸ hlt)
  rw [getElem?_placed, Option.map_eq_some_iff] at hplaced
  obtain ⟨resolved, hresolved, heq⟩ := hplaced
  rw [List.get_eq_getElem, List.get_eq_getElem, hinstruction, ← heq, startAt_of_resolveLabels h]
    at hplace
  exact ⟨resolved, hresolved, hplace⟩

/-- **What comes out when labels are resolved** is the script with its labels
resolved. -/
theorem isResolved_of_resolveLabels : IsResolved script result := by
  have hlength := congrArg List.length (map_length_of_resolveLabels h)
  rw [List.length_map, List.length_map] at hlength
  refine
    { length_eq := hlength
      unchanged := fun i instruction hget hlabel hvalue => ?_
      jump_resolved := fun i index instruction number hget hvalue => ?_ }
  · obtain ⟨resolved, hresolved, ⟨-, rfl⟩ | ⟨_, _, _, hjump, -⟩⟩ :=
      resolves_of_resolveLabels h hget hlabel
    · exact hresolved
    · exact nomatch hvalue.symm.trans hjump
  · have hlabel : instruction.isLabel = false := by
      rw [← Bool.not_eq_true]
      exact fun hlabel => nomatch
        hvalue.symm.trans (Instruction.jumpValue?_eq_none_of_isLabel hlabel)
    obtain ⟨resolved, hresolved, ⟨hnone, -⟩ | ⟨_, _, target, hjump, hplace, -, -, rfl⟩⟩ :=
      resolves_of_resolveLabels h hget hlabel
    · exact nomatch hnone.symm.trans hvalue
    · obtain ⟨rfl, rfl⟩ := Prod.mk.inj (Option.some.inj (hjump.symm.trans hvalue))
      obtain ⟨k, hk, rfl⟩ :=
        (labelPlace?_eq_some_iff (not_redefines_of_resolveLabels h)).mp hplace
      obtain ⟨n, hlabelled, -⟩ := id hk
      obtain ⟨hlt, -⟩ := List.getElem?_eq_some_iff.mp hlabelled
      obtain ⟨p, hp, hindex⟩ := exists_isBehindLabels hlt.le
      refine ⟨k, p, _, hk, (distanceBetween_iff hget hvalue).mpr rfl, hresolved, hp, ?_⟩
      rw [hindex, startAt_of_resolveLabels h, jumpsTo_iff]
      refine ⟨_, by rw [getElem?_placed, hresolved]; rfl, ?_⟩
      dsimp only
      rw [startAt_of_resolveLabels h]
      exact Instruction.target?_setValue_distanceTo hvalue _ _

end Resolved

/-- **Resolving labels is exact**, for every script. If some label is redefined, the
first one decides the error, whatever the jumps are; otherwise the first jump that
offends does, if there is one; otherwise the labels are resolved. -/
theorem resolveLabels_exact (script : Script) :
    ((∃ i number, script.Redefines i number) →
        ∃ i number, script.Redefines i number ∧ (∀ j < i, ∀ n, ¬script.Redefines j n)
          ∧ script.resolveLabels = .error (.labelRedefined i number))
      ∧ ((∀ i number, ¬script.Redefines i number) → (∃ i e, script.Offends i e) →
        ∃ i e, script.Offends i e ∧ (∀ j < i, ∀ e', ¬script.Offends j e')
          ∧ script.resolveLabels = .error e)
      ∧ ((∀ i number, ¬script.Redefines i number) → (∀ i e, ¬script.Offends i e) →
        ∃ result, script.resolveLabels = .ok result ∧ IsResolved script result) := by
  refine ⟨fun ⟨i, number, hi⟩ => ?_, fun hunique ⟨i, e, hi⟩ => ?_, fun hunique hnone => ?_⟩
  · cases h : redefinition? [] script.placed with
    | none => exact absurd hi (redefinition?_eq_none_iff.mp h i number)
    | some e =>
      obtain ⟨j, n, hj, hfirst, rfl⟩ := redefinition?_eq_some.mp h
      refine ⟨j, n, hj, hfirst, ?_⟩
      unfold resolveLabels
      rw [h]
  · cases h : script.resolveLabels with
    | ok result => exact absurd hi (not_offends_of_resolveLabels h i e)
    | error e' =>
      obtain ⟨j, hj, hfirst⟩ := (resolveLabels_eq_error hunique).mp h
      exact ⟨j, e', hj, hfirst, rfl⟩
  · cases h : script.resolveLabels with
    | ok result => exact ⟨result, rfl, isResolved_of_resolveLabels h⟩
    | error e =>
      obtain ⟨i, hi, -⟩ := (resolveLabels_eq_error hunique).mp h
      exact absurd hi (hnone i e)

/-- A label that is redefined behind a jump that names none, the same jump alone, and two
labels in a row that can be resolved. -/
theorem resolveLabels_exact_decided :
    (∃ i number, Redefines [.ordinary 0x10 [.ofKind .shortJump 7], .label 0, .label 0] i number
        ∧ (∀ j < i, ∀ n,
          ¬Redefines [.ordinary 0x10 [.ofKind .shortJump 7], .label 0, .label 0] j n)
        ∧ resolveLabels [.ordinary 0x10 [.ofKind .shortJump 7], .label 0, .label 0]
          = .error (.labelRedefined i number))
      ∧ (∃ i e, Offends [.label 0, .ordinary 0x10 [.ofKind .shortJump 7]] i e
        ∧ (∀ j < i, ∀ e', ¬Offends [.label 0, .ordinary 0x10 [.ofKind .shortJump 7]] j e')
        ∧ resolveLabels [.label 0, .ordinary 0x10 [.ofKind .shortJump 7]] = .error e)
      ∧ ∃ result,
        resolveLabels [.ordinary 0x10 [.ofKind .shortJump 7], .label 3, .label 7, .ordinary 0 []]
          = .ok result
        ∧ IsResolved [.ordinary 0x10 [.ofKind .shortJump 7], .label 3, .label 7, .ordinary 0 []]
          result := by
  have hjump : (Instruction.ordinary 0x10 [.ofKind .shortJump 7]).jumpValue? = some (0, 7) := rfl
  have hnone : ∀ k, ¬Defines [.label 0, .ordinary 0x10 [.ofKind .shortJump 7]] k 7 :=
    (labelPlace?_eq_none_iff (redefinition?_eq_none_iff.mp (by decide +kernel))).mp
      (by decide +kernel)
  have hresolved :
      resolveLabels [.ordinary 0x10 [.ofKind .shortJump 7], .label 3, .label 7, .ordinary 0 []]
        = .ok [.ordinary 0x10 [.ofKind .shortJump 1], .ordinary 0 []] := by decide +kernel
  exact ⟨(resolveLabels_exact _).1 ⟨2, 0, rfl, by decide⟩,
    (resolveLabels_exact _).2.1 (redefinition?_eq_none_iff.mp (by decide +kernel))
      ⟨1, _, .undefined rfl hjump hnone⟩,
    (resolveLabels_exact _).2.2 (not_redefines_of_resolveLabels hresolved)
      (not_offends_of_resolveLabels hresolved)⟩

end FieldMap.Script
