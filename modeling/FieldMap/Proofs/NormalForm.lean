import FieldMap.Proofs.Labels

/-!
# The normal form of a symbolic script

Two symbolic scripts can mean the same: what a jump means is the place where
its label stands, not the number by which it names it, and of several labels
in a row it does not matter which one is named. The *normal form* keeps one
label of each run that some jump names, and numbers these runs in their
order. It is computed from the labels of the script alone, without a byte
being counted.

Resolving a symbolic script and inserting labels again leads to the normal
form (`insertLabels_of_resolveLabels`). The reason is that a jump names a run
exactly when its distance, once resolved, leads to the boundary of that run
(`isNamed_iff_mem_targets`), so that the runs which are named are the
boundaries which get a label.
-/

namespace FieldMap.Script

/-- The numbers that the jumps of a script name. -/
def jumpNumbers (script : Script) : List Int :=
  script.filterMap fun instruction => instruction.jumpValue?.map Prod.snd

/-- Whether some jump names a label of the run. -/
def isNamed (script : Script) (run : List Nat) : Bool :=
  run.any fun number => script.jumpNumbers.contains (number : Int)

/-- The number of the run that holds a label, among the runs that some jump
names. -/
def runNumber (script : Script) (number : Int) : Nat :=
  ((labelRuns script).filter script.isNamed).findIdx fun run =>
    run.any fun n => (n : Int) = number

/-- A jump with the number of its run in the place of the label; all others
stay as they are. -/
def renumbered (script : Script) (instruction : Instruction) : Instruction :=
  match instruction.jumpValue? with
  | some (index, number) => instruction.setValue index (script.runNumber number)
  | none => instruction

/-- **The normal form of a symbolic script**: a run of labels that no jump
names is dropped, any other run becomes one label, and these labels are
numbered in their order. -/
def normalForm (script : Script) : Script :=
  weave (numberWhere script.isNamed 0 (labelRuns script))
    ((unlabelled script).map script.renumbered)

theorem isLabel_renumbered (script : Script) (instruction : Instruction) :
    (script.renumbered instruction).isLabel = instruction.isLabel := by
  unfold renumbered
  split
  · exact Instruction.isLabel_setValue ..
  · rfl

/-- The normal form is the numbered runs and the renumbered instructions. -/
theorem labelRuns_normalForm (script : Script) :
    labelRuns script.normalForm = numberWhere script.isNamed 0 (labelRuns script)
      ∧ unlabelled script.normalForm = (unlabelled script).map script.renumbered := by
  refine labelRuns_weave (fun instruction hmem => ?_) ?_
  · obtain ⟨original, horiginal, rfl⟩ := List.mem_map.mp hmem
    exact (isLabel_renumbered ..).trans (isLabel_of_mem_unlabelled original horiginal)
  · rw [length_numberWhere, length_labelRuns, List.length_map]

/-- **The labels of a normal form are numbered without a gap**, in their
order. -/
theorem flatten_labelRuns_normalForm (script : Script) :
    (labelRuns script.normalForm).flatten
      = List.range ((labelRuns script).countP script.isNamed) := by
  rw [(labelRuns_normalForm script).1, flatten_numberWhere, List.range_eq_range']

/-- Labels name nothing. -/
theorem jumpNumbers_eq (script : Script) :
    script.jumpNumbers
      = (unlabelled script).filterMap fun instruction => instruction.jumpValue?.map Prod.snd := by
  unfold jumpNumbers unlabelled
  rw [List.filterMap_filter]
  refine List.filterMap_congr (fun instruction _ => ?_)
  cases instruction <;> rfl

theorem isNamed_iff {script : Script} {run : List Nat} :
    script.isNamed run = true ↔ ∃ number ∈ run, (number : Int) ∈ script.jumpNumbers := by
  unfold isNamed
  rw [List.any_eq_true]
  exact exists_congr (fun number => and_congr_right (fun _ => List.contains_iff_mem))

/-! ## What resolving leaves in place -/

section Resolved

variable {script resolved : Script} {labels : List (Nat × Nat)}

theorem Resolves.length_eq {place : Instruction × Nat} {result : Instruction}
    (h : Resolves labels place result) : result.length = place.1.length := by
  rcases h with ⟨-, rfl⟩ | ⟨index, number, target, -, -, -, -, rfl⟩
  · rfl
  · exact Instruction.length_setValue ..

theorem Resolves.isLabel_eq {place : Instruction × Nat} {result : Instruction}
    (h : Resolves labels place result) : result.isLabel = place.1.isLabel := by
  rcases h with ⟨-, rfl⟩ | ⟨index, number, target, -, -, -, -, rfl⟩
  · rfl
  · exact Instruction.isLabel_setValue ..

/-- **A resolved jump leads to the label that it named.** -/
theorem Resolves.target?_eq {instruction result : Instruction} {start : Nat}
    (h : Resolves labels (instruction, start) result) :
    (result.target? start).map Int.toNat
      = (instruction.jumpValue?.map Prod.snd).bind (labelPlace? labels) := by
  rcases h with ⟨hvalue, rfl⟩ | ⟨index, number, target, hvalue, hlabel, -, -, rfl⟩
  · dsimp only at hvalue ⊢
    unfold Instruction.target?
    rw [hvalue]
    rfl
  · dsimp only at hvalue ⊢
    rw [Instruction.target?_setValue_distanceTo hvalue, hvalue]
    exact hlabel.symm

/-- Resolving keeps lengths, so that what it makes of each instruction stands
where the instruction stood. -/
theorem forall₂_placedFrom {start index : Nat} {instructions results : Script}
    (h : List.Forall₂ (Resolves labels) (instructions.zip (startsFrom start instructions)) results) :
    List.Forall₂ (fun instruction place =>
        Resolves labels (instruction, place.start) place.instruction)
      instructions (placedFrom start index results) := by
  induction instructions generalizing start index results with
  | nil =>
    rw [List.zip_nil_left, List.forall₂_nil_left_iff] at h
    rw [h]
    exact .nil
  | cons instruction rest ih =>
    rw [startsFrom_cons, List.zip_cons_cons, List.forall₂_cons_left_iff] at h
    obtain ⟨result, tail, hresult, htail, rfl⟩ := h
    refine .cons hresult ?_
    rw [hresult.length_eq]
    exact ih htail

theorem forall₂_placed (h : script.resolveLabels = .ok resolved) :
    List.Forall₂ (fun instruction place =>
        Resolves (labelPlaces script.placed) (instruction, place.start) place.instruction)
      (unlabelled script) resolved.placed := by
  rw [placed_eq resolved]
  exact forall₂_placedFrom (resolveLabels_eq_ok.mp h).2

theorem isLabel_of_resolveLabels (h : script.resolveLabels = .ok resolved) :
    ∀ instruction ∈ resolved, instruction.isLabel = false := by
  have hmap : (unlabelled script).map Instruction.isLabel = resolved.map Instruction.isLabel := by
    rw [← map_instruction_placed resolved, List.map_map, List.map_eq_map_iff_forall₂]
    exact (forall₂_placed h).imp (fun _ _ hplace => hplace.isLabel_eq.symm)
  intro instruction hmem
  have hlabel := List.mem_map_of_mem (f := Instruction.isLabel) hmem
  rw [← hmap] at hlabel
  obtain ⟨original, horiginal, heq⟩ := List.mem_map.mp hlabel
  exact heq.symm.trans (isLabel_of_mem_unlabelled original horiginal)

theorem map_length_of_resolveLabels (h : script.resolveLabels = .ok resolved) :
    resolved.map Instruction.length = (unlabelled script).map Instruction.length := by
  rw [← map_instruction_placed resolved, List.map_map, eq_comm, List.map_eq_map_iff_forall₂]
  exact (forall₂_placed h).imp (fun _ _ hplace => hplace.length_eq.symm)

/-- **Resolving moves no boundary.** -/
theorem boundaries_of_resolveLabels (h : script.resolveLabels = .ok resolved) :
    resolved.boundaries = script.boundaries := by
  rw [boundaries_eq, boundaries_eq, unlabelled_eq_self (isLabel_of_resolveLabels h)]
  exact startsFrom_congr (map_length_of_resolveLabels h) 0

/-- **The targets of a resolved script** are the places of the labels that its
jumps named. -/
theorem targets_of_resolveLabels (h : script.resolveLabels = .ok resolved) :
    resolved.targets = script.jumpNumbers.filterMap (labelPlace? (labelPlaces script.placed)) := by
  have hmap : (unlabelled script).map (fun instruction =>
        (instruction.jumpValue?.map Prod.snd).bind (labelPlace? (labelPlaces script.placed)))
      = resolved.placed.map fun place =>
        (place.instruction.target? place.start).map Int.toNat :=
    List.map_eq_map_iff_forall₂.mpr ((forall₂_placed h).imp (fun _ _ hplace => hplace.target?_eq.symm))
  have hids := congrArg (List.filterMap id) hmap
  rw [List.filterMap_map, List.filterMap_map] at hids
  rw [jumpNumbers_eq, List.filterMap_filterMap, targets, List.filterMap_map]
  exact hids.symm

theorem mem_targets_of_resolveLabels (h : script.resolveLabels = .ok resolved) {target : Nat} :
    target ∈ resolved.targets
      ↔ ∃ number ∈ script.jumpNumbers,
        labelPlace? (labelPlaces script.placed) number = some target := by
  rw [targets_of_resolveLabels h, List.mem_filterMap]

/-! ## Runs and boundaries -/

/-- At each boundary stands one run. -/
theorem eq_of_mem_marks {a b : List Nat × Nat} (ha : a ∈ script.marks) (hb : b ∈ script.marks)
    (h : a.2 = b.2) : a = b := by
  have hnodup : (script.marks.map Prod.snd).Nodup := by
    rw [map_snd_marks]
    exact nodup_boundaries script
  exact List.inj_on_of_nodup_map hnodup ha hb h

/-- **A number names the boundary of the run that holds it**, and no other. -/
theorem labelPlace?_eq_some_iff_mem (hnodup : (labelRuns script).flatten.Nodup)
    {mark : List Nat × Nat} (hmark : mark ∈ script.marks) {number : Int} :
    labelPlace? (labelPlaces script.placed) number = some mark.2
      ↔ ∃ n ∈ mark.1, (n : Int) = number := by
  rw [labelPlace?_eq_some hnodup]
  constructor
  · rintro ⟨other, hother, hboundary, hnumber⟩
    rwa [eq_of_mem_marks hother hmark hboundary] at hnumber
  · exact fun hnumber => ⟨mark, hmark, rfl, hnumber⟩

/-- **A run is named exactly when a jump leads to its boundary.** -/
theorem isNamed_iff_mem_targets (h : script.resolveLabels = .ok resolved) {mark : List Nat × Nat}
    (hmark : mark ∈ script.marks) :
    script.isNamed mark.1 = resolved.targets.contains mark.2 := by
  have hnodup := (resolveLabels_eq_ok.mp h).1
  rw [Bool.eq_iff_iff, isNamed_iff, List.contains_iff_mem, mem_targets_of_resolveLabels h]
  simp only [labelPlace?_eq_some_iff_mem hnodup hmark]
  constructor
  · rintro ⟨n, hn, hjump⟩
    exact ⟨n, hjump, n, hn, rfl⟩
  · rintro ⟨-, hjump, n, hn, rfl⟩
    exact ⟨n, hn, hjump⟩

theorem map_isNamed_labelRuns (h : script.resolveLabels = .ok resolved) :
    (labelRuns script).map script.isNamed
      = resolved.boundaries.map resolved.targets.contains := by
  rw [boundaries_of_resolveLabels h, ← map_fst_marks, ← map_snd_marks, List.map_map, List.map_map]
  exact List.map_congr_left (fun mark hmark => isNamed_iff_mem_targets h hmark)

theorem findIdx_congr {α : Type} {p q : α → Bool} {as : List α} (h : ∀ a ∈ as, p a = q a) :
    as.findIdx p = as.findIdx q :=
  (List.findIdx_le_findIdx (fun a ha hq => (h a ha).trans hq)).antisymm
    (List.findIdx_le_findIdx (fun a ha hp => (h a ha).symm.trans hp))

/-- **The number of a run is that of its boundary**: both count what stands
in front, the one named runs, the other marked boundaries. -/
theorem runNumber_eq_idxOf (h : script.resolveLabels = .ok resolved) {number : Int} {target : Nat}
    (hlabel : labelPlace? (labelPlaces script.placed) number = some target) :
    script.runNumber number = resolved.marked.idxOf target := by
  have hnodup := (resolveLabels_eq_ok.mp h).1
  have hfilter : script.marks.filter (script.isNamed ∘ Prod.fst)
      = script.marks.filter (resolved.targets.contains ∘ Prod.snd) :=
    List.filter_congr (fun mark hmark => isNamed_iff_mem_targets h hmark)
  unfold runNumber marked
  rw [boundaries_of_resolveLabels h, ← map_fst_marks, ← map_snd_marks, List.filter_map,
    List.filter_map, hfilter, List.findIdx_map, List.idxOf, List.findIdx_map]
  refine findIdx_congr (fun mark hmark => ?_)
  have hmark := List.mem_of_mem_filter hmark
  rw [Bool.eq_iff_iff]
  show mark.1.any (fun n => (n : Int) = number) = true ↔ (mark.2 == target) = true
  rw [List.any_eq_true, beq_iff_eq]
  simp only [decide_eq_true_eq]
  rw [← labelPlace?_eq_some_iff_mem hnodup hmark, hlabel, Option.some.injEq, eq_comm]

/-- Each named run gets a label, so there are no more of them than instructions. -/
theorem length_marked_of_resolveLabels (h : script.resolveLabels = .ok resolved) :
    resolved.marked.length = (labelRuns script).countP script.isNamed
      ∧ resolved.marked.length ≤ script.length := by
  have hcount := congrArg (List.countP id) (map_isNamed_labelRuns h)
  rw [List.countP_map, List.countP_map] at hcount
  have hlength : resolved.length ≤ script.length := by
    have hlengths := congrArg List.length (map_length_of_resolveLabels h)
    rw [List.length_map, List.length_map] at hlengths
    exact hlengths.trans_le (List.length_filter_le ..)
  refine ⟨?_, (length_marked_le resolved).trans ((length_targets_le resolved).trans hlength)⟩
  rw [marked, ← List.countP_eq_length_filter]
  exact hcount.symm

/-- What inserting makes of a resolved instruction. -/
theorem renumbered_eq_symbolicAt (h : script.resolveLabels = .ok resolved)
    (hcount : resolved.marked.length < 2 ^ 32) {instruction : Instruction} {place : PlacedInstruction}
    (hplace : Resolves (labelPlaces script.placed) (instruction, place.start) place.instruction) :
    script.renumbered instruction = resolved.symbolicAt place := by
  obtain ⟨result, start, index⟩ := place
  unfold renumbered
  rcases hplace with ⟨hvalue, heq⟩ | ⟨jump, number, target, hvalue, hlabel, -, -, heq⟩
  · dsimp only at hvalue heq
    subst heq
    rw [hvalue, symbolicAt_of_not_jump hvalue]
  · dsimp only at hvalue heq
    subst heq
    have hnumber : labelNumber (resolved.marked.idxOf target) = resolved.marked.idxOf target :=
      labelNumber_of_lt (List.idxOf_le_length.trans_lt hcount)
    rw [hvalue, symbolicAt_of_jump (Instruction.jumpValue?_setValue hvalue _)
      (Instruction.target?_setValue_distanceTo hvalue start target), Instruction.setValue_setValue,
      hnumber]
    exact congrArg (fun n : Nat => instruction.setValue jump n) (runNumber_eq_idxOf h hlabel)

/-- Every jump of a resolved script leads to a boundary. -/
theorem leadsToBoundary_of_resolves (hnodup : (labelRuns script).flatten.Nodup)
    {instruction : Instruction} {place : PlacedInstruction}
    (hplace : Resolves (labelPlaces script.placed) (instruction, place.start) place.instruction) :
    LeadsToBoundary script.boundaries place := by
  obtain ⟨result, start, index⟩ := place
  intro t ht
  rcases hplace with ⟨hvalue, heq⟩ | ⟨jump, number, target, hvalue, hlabel, -, -, heq⟩
  · dsimp only at hvalue heq ht
    subst heq
    unfold Instruction.target? at ht
    rw [hvalue] at ht
    exact nomatch ht
  · dsimp only at hvalue heq ht
    subst heq
    rw [Instruction.target?_setValue_distanceTo hvalue, Option.some.injEq] at ht
    obtain ⟨mark, hmark, hboundary, -⟩ := (labelPlace?_eq_some hnodup).mp hlabel
    refine ⟨target, ?_, ht⟩
    rw [← hboundary, ← map_snd_marks]
    exact List.mem_map_of_mem hmark

/-- **Resolving keeps a symbolic script up to the names of its labels.** When
it succeeds, inserting labels into its result succeeds as well, and gives
the normal form of the symbolic script. The script has to be short enough
for words of 32 bits to number its labels. -/
theorem insertLabels_of_resolveLabels (hlength : script.length < 2 ^ 32)
    (h : script.resolveLabels = .ok resolved) :
    resolved.insertLabels = .ok script.normalForm := by
  have hnodup := (resolveLabels_eq_ok.mp h).1
  obtain ⟨hnamed, hmarked⟩ := length_marked_of_resolveLabels h
  have hcount : resolved.marked.length < 2 ^ 32 := hmarked.trans_lt hlength
  obtain ⟨hruns, hinstructions⟩ := labelRuns_normalForm script
  refine (insertLabels_eq_ok (isLabel_of_resolveLabels h)).mpr ⟨?_, ?_, ?_⟩
  · rw [boundaries_of_resolveLabels h]
    have hleads := (forall₂_placed h).imp
      (S := fun _ place => LeadsToBoundary script.boundaries place ∧ True)
      (fun _ _ hplace => ⟨leadsToBoundary_of_resolves hnodup hplace, trivial⟩)
    exact ((List.forall₂_and_left _ _).mp hleads.flip).1
  · rw [hruns, ← map_labelNumber_numberWhere (hnamed.symm.trans_le hcount.le),
      numberWhere_congr (map_isNamed_labelRuns h) 0]
  · rw [hinstructions, List.map_eq_map_iff_forall₂]
    exact (forall₂_placed h).imp (fun _ _ hplace => renumbered_eq_symbolicAt h hcount hplace)

/-- Two labels in front of a script, one of its middle that no jump names, and
two at its end: of the first two both are named, of the last two one. -/
theorem insertLabels_of_resolveLabels_merged :
    resolveLabels [.label 7, .label 3, .ordinary 0x10 [.ofKind .shortJump 5], .label 9,
          .ordinary 0x12 [.ofKind .shortJump 3], .ordinary 0x12 [.ofKind .shortJump 7], .label 4,
          .label 5]
        = .ok [.ordinary 0x10 [.ofKind .shortJump 5], .ordinary 0x12 [.ofKind .shortJump 2],
          .ordinary 0x12 [.ofKind .shortJump 4]]
      ∧ insertLabels [.ordinary 0x10 [.ofKind .shortJump 5], .ordinary 0x12 [.ofKind .shortJump 2],
          .ordinary 0x12 [.ofKind .shortJump 4]]
        = .ok (normalForm [.label 7, .label 3, .ordinary 0x10 [.ofKind .shortJump 5], .label 9,
          .ordinary 0x12 [.ofKind .shortJump 3], .ordinary 0x12 [.ofKind .shortJump 7], .label 4,
          .label 5])
      ∧ normalForm [.label 7, .label 3, .ordinary 0x10 [.ofKind .shortJump 5], .label 9,
          .ordinary 0x12 [.ofKind .shortJump 3], .ordinary 0x12 [.ofKind .shortJump 7], .label 4,
          .label 5]
        = [.label 0, .ordinary 0x10 [.ofKind .shortJump 1], .ordinary 0x12 [.ofKind .shortJump 0],
          .ordinary 0x12 [.ofKind .shortJump 0], .label 1] :=
  ⟨by decide +kernel, insertLabels_of_resolveLabels (by decide) (by decide +kernel), by decide +kernel⟩

end Resolved

end FieldMap.Script
