import FieldMap.Proofs.Jumps

/-!
# A script and its runs of labels

A script with labels is two things woven into each other: the instructions
that take up bytes, and in front of each of them, and at the end, a *run*
of labels, which may be empty. `labelRuns` and `unlabelled` take a script
apart in this way and `weave` puts it together again.

The runs are as many as the boundaries of the script, and the labels of a
run are what stands at its boundary. `marks` pairs the two, and everything
that is known of the places of labels is read off there
(`labelPlaces_placed`).
-/

namespace FieldMap.Script

/-! ## Places from an offset on -/

/-- The starts of the instructions of a script that begins at an offset,
and its end. -/
def startsFrom (start : Nat) (script : Script) : List Nat :=
  script.scanl (fun offset instruction => offset + instruction.length) start

/-- The instructions of a script that begins at an offset, with their
places. -/
def placedFrom (start index : Nat) : Script → List PlacedInstruction
  | [] => []
  | instruction :: rest =>
    ⟨instruction, start, index⟩ :: placedFrom (start + instruction.length) (index + 1) rest

theorem startsFrom_nil (start : Nat) : startsFrom start [] = [start] := List.scanl_nil

theorem startsFrom_cons (start : Nat) (instruction : Instruction) (rest : Script) :
    startsFrom start (instruction :: rest)
      = start :: startsFrom (start + instruction.length) rest := List.scanl_cons

theorem length_startsFrom (start : Nat) (script : Script) :
    (startsFrom start script).length = script.length + 1 := List.length_scanl ..

theorem placed_eq (script : Script) : script.placed = placedFrom 0 0 script := by
  have h : ∀ start index, ((script.zip (startsFrom start script)).zipIdx index).map
      (fun entry => (⟨entry.1.1, entry.1.2, entry.2⟩ : PlacedInstruction))
        = placedFrom start index script := by
    induction script with
    | nil => exact fun _ _ => rfl
    | cons instruction rest ih =>
      intro start index
      rw [startsFrom_cons, List.zip_cons_cons, List.zipIdx_cons, List.map_cons, ih, placedFrom]
  exact h 0 0

/-- The starts are those of the placed instructions, and the end. -/
theorem startsFrom_eq (start index : Nat) (script : Script) :
    startsFrom start script
      = (placedFrom start index script).map PlacedInstruction.start
        ++ [start + script.byteLength] := by
  induction script generalizing start index with
  | nil => rfl
  | cons instruction rest ih =>
    rw [startsFrom_cons, ih _ (index + 1), placedFrom, List.map_cons, byteLength_cons,
      ← Nat.add_assoc, List.cons_append]

/-! ## Taking a script apart -/

/-- The numbers of the labels in front of each instruction that takes up
bytes, and of those at the end. -/
def labelRuns : Script → List (List Nat)
  | [] => [[]]
  | .label number :: rest => (labelRuns rest).modifyHead (number :: ·)
  | _ :: rest => [] :: labelRuns rest

/-- The instructions that take up bytes. -/
def unlabelled (script : Script) : Script := script.filter fun instruction => !instruction.isLabel

/-- **Runs of labels and instructions** as one script: a run in front of
each instruction, and one at the end. -/
def weave : List (List Nat) → Script → Script
  | run :: runs, instruction :: rest => run.map .label ++ instruction :: weave runs rest
  | run :: _, [] => run.map .label
  | [], rest => rest

theorem labelRuns_label (number : Nat) (rest : Script) :
    labelRuns (.label number :: rest) = (labelRuns rest).modifyHead (number :: ·) := rfl

theorem labelRuns_cons {instruction : Instruction} (h : instruction.isLabel = false)
    (rest : Script) : labelRuns (instruction :: rest) = [] :: labelRuns rest := by
  cases instruction with
  | label number => exact absurd h (by simp [Instruction.isLabel])
  | _ => rfl

theorem unlabelled_label (number : Nat) (rest : Script) :
    unlabelled (.label number :: rest) = unlabelled rest := rfl

theorem unlabelled_cons {instruction : Instruction} (h : instruction.isLabel = false)
    (rest : Script) : unlabelled (instruction :: rest) = instruction :: unlabelled rest :=
  List.filter_cons_of_pos (by rw [h]; rfl)

theorem isLabel_of_mem_unlabelled {script : Script} :
    ∀ instruction ∈ unlabelled script, instruction.isLabel = false := fun _ hmem =>
  Bool.not_eq_true' _ ▸ (List.mem_filter.mp hmem).2

theorem unlabelled_eq_self {script : Script}
    (h : ∀ instruction ∈ script, instruction.isLabel = false) : unlabelled script = script :=
  List.filter_eq_self.mpr (fun instruction hmem => by rw [h instruction hmem]; rfl)

/-- Induction along a script whose labels are told apart from the rest. -/
theorem label_induction {motive : Script → Prop} (nil : motive [])
    (label : ∀ number rest, motive rest → motive (.label number :: rest))
    (cons : ∀ instruction rest, instruction.isLabel = false → motive rest →
      motive (instruction :: rest)) (script : Script) : motive script := by
  induction script with
  | nil => exact nil
  | cons instruction rest ih =>
    cases hlabel : instruction.isLabel with
    | false => exact cons instruction rest hlabel ih
    | true =>
      cases instruction with
      | label number => exact label number rest ih
      | _ => exact absurd hlabel (by simp [Instruction.isLabel])

theorem length_labelRuns (script : Script) :
    (labelRuns script).length = (unlabelled script).length + 1 := by
  induction script using label_induction with
  | nil => rfl
  | label number rest ih =>
    rw [labelRuns_label, List.length_modifyHead, ih, unlabelled_label]
  | cons instruction rest h ih =>
    rw [labelRuns_cons h, unlabelled_cons h, List.length_cons, List.length_cons, ih]

theorem labelRuns_ne_nil (script : Script) : labelRuns script ≠ [] :=
  List.ne_nil_of_length_pos (by rw [length_labelRuns]; exact Nat.succ_pos _)

/-- The runs hold the numbers of all labels. -/
theorem label_mem_iff {script : Script} {number : Nat} :
    .label number ∈ script ↔ number ∈ (labelRuns script).flatten := by
  induction script using label_induction with
  | nil => simp [labelRuns]
  | label n rest ih =>
    obtain ⟨run, runs, hruns⟩ := List.exists_cons_of_ne_nil (labelRuns_ne_nil rest)
    rw [hruns] at ih
    rw [labelRuns_label, hruns, List.modifyHead_cons, List.flatten_cons, List.cons_append,
      List.mem_cons, List.mem_cons, Instruction.label.injEq, ih, List.flatten_cons]
  | cons instruction rest h ih =>
    rw [labelRuns_cons h, List.flatten_cons, List.nil_append, List.mem_cons, ← ih]
    refine or_iff_right (fun heq => ?_)
    rw [← heq] at h
    exact nomatch h

/-- **A script is its runs of labels woven into its instructions.** -/
theorem weave_labelRuns (script : Script) : weave (labelRuns script) (unlabelled script) = script := by
  induction script using label_induction with
  | nil => rfl
  | label number rest ih =>
    rw [labelRuns_label, unlabelled_label]
    obtain ⟨run, runs, hruns⟩ := List.exists_cons_of_ne_nil (labelRuns_ne_nil rest)
    rw [hruns] at ih ⊢
    conv_rhs => rw [← ih]
    cases unlabelled rest with
    | nil => rfl
    | cons instruction tail => rfl
  | cons instruction rest h ih =>
    rw [labelRuns_cons h, unlabelled_cons h, weave, ih]
    rfl

/-- Two scripts with the same runs and the same instructions are one. -/
theorem eq_of_labelRuns_eq {a b : Script} (hruns : labelRuns a = labelRuns b)
    (hinstructions : unlabelled a = unlabelled b) : a = b := by
  rw [← weave_labelRuns a, hruns, hinstructions, weave_labelRuns b]

/-- What stands behind a run of labels is taken apart as it would be without
them. -/
theorem labelRuns_append (run : List Nat) (rest : Script) :
    labelRuns (run.map .label ++ rest) = (labelRuns rest).modifyHead (run ++ ·) := by
  induction run with
  | nil =>
    rw [List.map_nil, List.nil_append]
    cases labelRuns rest with
    | nil => rfl
    | cons first runs => rfl
  | cons number run ih =>
    rw [List.map_cons, List.cons_append, labelRuns_label, ih, List.modifyHead_modifyHead]
    rfl

theorem unlabelled_append (run : List Nat) (rest : Script) :
    unlabelled (run.map .label ++ rest) = unlabelled rest := by
  induction run with
  | nil => rfl
  | cons number run ih => rw [List.map_cons, List.cons_append, unlabelled_label, ih]

/-- **Weaving and taking apart** give back what was woven. -/
theorem labelRuns_weave {runs : List (List Nat)} {script : Script}
    (hlabels : ∀ instruction ∈ script, instruction.isLabel = false)
    (hlen : runs.length = script.length + 1) :
    labelRuns (weave runs script) = runs ∧ unlabelled (weave runs script) = script := by
  induction script generalizing runs with
  | nil =>
    obtain ⟨run, rfl⟩ := List.length_eq_one_iff.mp hlen
    have hruns := labelRuns_append run []
    have hinstructions := unlabelled_append run []
    rw [List.append_nil] at hruns hinstructions
    refine ⟨hruns.trans ?_, hinstructions⟩
    show [run ++ []] = [run]
    rw [List.append_nil]
  | cons instruction rest ih =>
    have hfirst := hlabels instruction List.mem_cons_self
    obtain ⟨run, runs, rfl⟩ := List.exists_cons_of_length_pos (by omega : 0 < runs.length)
    obtain ⟨hruns, hinstructions⟩ :=
      ih (fun i hi => hlabels i (List.mem_cons_of_mem instruction hi)) (Nat.succ.inj hlen)
    rw [weave, labelRuns_append, unlabelled_append, labelRuns_cons hfirst, unlabelled_cons hfirst,
      hruns, hinstructions]
    refine ⟨?_, rfl⟩
    show (run ++ []) :: runs = run :: runs
    rw [List.append_nil]

/-! ## Boundaries and the labels at them -/

/-- **Each boundary with the labels that mark it.** -/
def marks (script : Script) : List (List Nat × Nat) := (labelRuns script).zip script.boundaries

theorem boundaries_eq (script : Script) :
    script.boundaries = startsFrom 0 (unlabelled script) := rfl

theorem length_boundaries (script : Script) :
    script.boundaries.length = (labelRuns script).length := by
  rw [boundaries_eq, length_startsFrom, length_labelRuns]

theorem map_fst_marks (script : Script) : script.marks.map Prod.fst = labelRuns script :=
  List.map_fst_zip (length_boundaries script).ge

theorem map_snd_marks (script : Script) : script.marks.map Prod.snd = script.boundaries :=
  List.map_snd_zip (length_boundaries script).le

theorem le_of_mem_startsFrom {start b : Nat} {script : Script} (h : b ∈ startsFrom start script) :
    start ≤ b := by
  induction script generalizing start with
  | nil =>
    rw [startsFrom_nil, List.mem_singleton] at h
    exact h.ge
  | cons instruction rest ih =>
    rw [startsFrom_cons, List.mem_cons] at h
    rcases h with rfl | h
    · exact le_rfl
    · exact (Nat.le_add_right _ _).trans (ih h)

theorem pairwise_startsFrom {script : Script}
    (hlabels : ∀ instruction ∈ script, instruction.isLabel = false) (start : Nat) :
    (startsFrom start script).Pairwise (· < ·) := by
  induction script generalizing start with
  | nil =>
    rw [startsFrom_nil]
    exact List.pairwise_singleton _ _
  | cons instruction rest ih =>
    have hpos := Instruction.length_pos_of_isLabel (hlabels instruction List.mem_cons_self)
    rw [startsFrom_cons, List.pairwise_cons]
    refine ⟨fun b hb => ?_, ih (fun i hi => hlabels i (List.mem_cons_of_mem instruction hi)) _⟩
    have hle := le_of_mem_startsFrom hb
    omega

/-- **The boundaries of a script ascend.** -/
theorem pairwise_boundaries (script : Script) : script.boundaries.Pairwise (· < ·) :=
  pairwise_startsFrom isLabel_of_mem_unlabelled 0

theorem nodup_boundaries (script : Script) : script.boundaries.Nodup :=
  (pairwise_boundaries script).imp Nat.ne_of_lt

theorem labelPlaces_placedFrom (start index : Nat) (script : Script) :
    labelPlaces (placedFrom start index script)
      = ((labelRuns script).zip (startsFrom start (unlabelled script))).flatMap
        fun (run, boundary) => run.map fun number => (number, boundary) := by
  induction script using label_induction generalizing start index with
  | nil => rfl
  | label number rest ih =>
    have hhead : labelPlaces (placedFrom start index (.label number :: rest))
        = (number, start) :: labelPlaces (placedFrom start (index + 1) rest) := rfl
    obtain ⟨run, runs, hruns⟩ := List.exists_cons_of_ne_nil (labelRuns_ne_nil rest)
    obtain ⟨tail, htail⟩ : ∃ tail, startsFrom start (unlabelled rest) = start :: tail := by
      cases unlabelled rest with
      | nil => exact ⟨[], startsFrom_nil start⟩
      | cons instruction more => exact ⟨_, startsFrom_cons start instruction more⟩
    rw [hhead, ih, labelRuns_label, unlabelled_label, hruns, htail]
    rfl
  | cons instruction rest h ih =>
    have hhead : labelPlaces (placedFrom start index (instruction :: rest))
        = labelPlaces (placedFrom (start + instruction.length) (index + 1) rest) := by
      cases instruction with
      | label number => exact absurd h (by simp [Instruction.isLabel])
      | _ => rfl
    rw [hhead, ih, labelRuns_cons h, unlabelled_cons h, startsFrom_cons]
    rfl

/-- **A label stands at the boundary of its run.** -/
theorem labelPlaces_placed (script : Script) :
    labelPlaces script.placed
      = script.marks.flatMap fun (run, boundary) => run.map fun number => (number, boundary) := by
  rw [placed_eq, labelPlaces_placedFrom]
  rfl

theorem unlabelled_placedFrom (start index : Nat) (script : Script) :
    ((placedFrom start index script).filter fun place => !place.instruction.isLabel).map
        (fun place => (place.instruction, place.start))
      = (unlabelled script).zip (startsFrom start (unlabelled script)) := by
  induction script using label_induction generalizing start index with
  | nil => rfl
  | label number rest ih => exact ih start (index + 1)
  | cons instruction rest h ih =>
    rw [placedFrom, List.filter_cons_of_pos (by rw [h]; rfl), List.map_cons, ih,
      unlabelled_cons h, startsFrom_cons, List.zip_cons_cons]

/-- **Labels do not move what stands behind them.** -/
theorem unlabelled_placed (script : Script) :
    (script.placed.filter fun place => !place.instruction.isLabel).map
        (fun place => (place.instruction, place.start))
      = (unlabelled script).zip script.boundaries := by
  rw [placed_eq, unlabelled_placedFrom]
  rfl

end FieldMap.Script
