import FieldMap.Proofs.StoredDistance

/-!
# The symbolic form of a script

A script and its symbolic form are related by the *marks*: the boundaries to which
some jump leads, in ascending order. In the symbolic form there is one label for each
mark, numbered by the place of the mark, and it stands right in front of the instruction
that starts there, or last. A jump holds the number of the label at its target in the
place of its distance, and everything else is as it was (`IsSymbolicForm`).

Inserting labels gives the symbolic form of a script if every jump leads to a
boundary, and otherwise the first jump that does not is the error
(`insertLabels_exact`). Labels are numbered by their places as far as words of 32 bits
reach; behind `2 ^ 32` marks the numbers start over (`ladder_numbers_repeat`).
-/

namespace FieldMap.Script

/-! ## Labels by position -/

/-- **The numbers of the labels of a script**, as they stand. -/
def labelNumbers (script : Script) : List Nat :=
  script.filterMap fun
    | .label number => some number
    | _ => none

theorem labelNumbers_cons {instruction : Instruction} (h : instruction.isLabel = false)
    (rest : Script) : labelNumbers (instruction :: rest) = labelNumbers rest := by
  cases instruction with
  | label number => exact absurd h (by simp [Instruction.isLabel])
  | _ => rfl

/-- The runs hold the numbers of the labels in their order. -/
theorem labelNumbers_eq_flatten (script : Script) :
    labelNumbers script = (labelRuns script).flatten := by
  induction script using label_induction with
  | nil => rfl
  | label number rest ih =>
    obtain ⟨run, runs, hruns⟩ := List.exists_cons_of_ne_nil (labelRuns_ne_nil rest)
    rw [labelRuns_label, hruns, List.modifyHead_cons, List.flatten_cons, List.cons_append,
      ← List.flatten_cons, ← hruns, ← ih]
    rfl
  | cons instruction rest h ih =>
    rw [labelNumbers_cons h, labelRuns_cons h, List.flatten_cons, List.nil_append, ih]

theorem unlabelled_concat (front back : Script) :
    unlabelled (front ++ back) = unlabelled front ++ unlabelled back := List.filter_append ..

/-- **The run of a label** is that of the instruction that follows, and ends with the
labels between the two; the labels in front are those of the runs before it, and the
beginning of its own. -/
theorem labelRuns_at_label (front : Script) (number : Nat) (back : Script) :
    ∃ before, (labelRuns (front ++ .label number :: back))[(unlabelled front).length]?
        = some (before ++ number :: (labelRuns back).headD [])
      ∧ labelNumbers front = ((labelRuns (front ++ .label number :: back)).take
        (unlabelled front).length).flatten ++ before := by
  induction front using label_induction with
  | nil =>
    obtain ⟨run, runs, hruns⟩ := List.exists_cons_of_ne_nil (labelRuns_ne_nil back)
    refine ⟨[], ?_, rfl⟩
    rw [List.nil_append, labelRuns_label, hruns]
    rfl
  | label first front ih =>
    obtain ⟨before, hbefore, hnumbers⟩ := ih
    have hfront : labelNumbers (.label first :: front) = first :: labelNumbers front := rfl
    rw [List.cons_append, labelRuns_label, unlabelled_label, List.getElem?_modifyHead, hfront,
      hnumbers]
    -- the label is in the run of the one in front, or that run is over
    cases hlength : (unlabelled front).length with
    | zero =>
      rw [hlength] at hbefore
      exact ⟨first :: before, by rw [if_pos rfl, hbefore]; rfl, rfl⟩
    | succ n =>
      rw [hlength] at hbefore
      obtain ⟨run, runs, hruns⟩ :=
        List.exists_cons_of_ne_nil (labelRuns_ne_nil (front ++ .label number :: back))
      refine ⟨before, by rw [if_neg n.succ_ne_zero, hbefore], ?_⟩
      rw [hruns]
      rfl
  | cons instruction front h ih =>
    obtain ⟨before, hbefore, hnumbers⟩ := ih
    refine ⟨before, ?_, ?_⟩
    · rw [List.cons_append, labelRuns_cons h, unlabelled_cons h, List.length_cons,
        List.getElem?_cons_succ, hbefore]
    · rw [labelNumbers_cons h, hnumbers, List.cons_append, labelRuns_cons h, unlabelled_cons h,
        List.length_cons, List.take_succ_cons, List.flatten_cons, List.nil_append]

/-- Where no label comes first, an instruction does, or nothing. -/
theorem head?_of_labelRuns {script : Script} (h : (labelRuns script).headD [] = []) :
    script.head? = (unlabelled script)[0]? := by
  induction script using label_induction with
  | nil => rfl
  | label number rest =>
    obtain ⟨run, runs, hruns⟩ := List.exists_cons_of_ne_nil (labelRuns_ne_nil rest)
    rw [labelRuns_label, hruns] at h
    exact nomatch h
  | cons instruction rest hlabel =>
    rw [unlabelled_cons hlabel]
    rfl

/-! ## The form -/

/-- **A script in symbolic form**, with the boundaries that its labels mark and the
numbers that labels get by their places. -/
structure IsSymbolicForm (number : Nat → Nat) (script symbolic : Script) (marks : List Nat) :
    Prop where
  /-- The marks ascend. -/
  ascending : marks.Pairwise (· < ·)
  /-- The marks are the bytes to which jumps lead. -/
  mem_marks_iff : ∀ boundary : Nat, boundary ∈ marks ↔ ∃ i, script.JumpsTo i boundary
  /-- The labels are numbered from the first place on as they stand, one for each mark. -/
  labelNumbers_eq : symbolic.labelNumbers = (List.range marks.length).map number
  /-- A label marks as many boundaries as stand in front of it: its own is next. It stands
  right in front of the instruction that starts there, or last if that is the end. -/
  label_placed : ∀ front n back, symbolic = front ++ .label n :: back →
    marks[(labelNumbers front).length]? = some (script.startAt (unlabelled front).length)
      ∧ back.head? = (unlabelled symbolic)[(unlabelled front).length]?
  /-- Apart from the labels there are as many instructions as before. -/
  length_unlabelled : (unlabelled symbolic).length = script.length
  /-- An instruction that is no jump stays as it is. -/
  unchanged : ∀ (i : Nat) (instruction : Instruction), script[i]? = some instruction →
    instruction.jumpValue? = none → (unlabelled symbolic)[i]? = some instruction
  /-- A jump holds the number of the label at its target, and nothing else of it
  changes. -/
  jump_numbered : ∀ (i index : Nat) (instruction : Instruction) (distance : Int),
    script[i]? = some instruction → instruction.jumpValue? = some (index, distance) →
      ∃ place target : Nat, script.JumpsTo i target ∧ marks[place]? = some target
        ∧ (unlabelled symbolic)[i]? = some (instruction.setValue index (number place))

/-- Only the numbers of the places that have a mark count. -/
theorem IsSymbolicForm.congr {number number' : Nat → Nat} {script symbolic : Script}
    {marks : List Nat} (h : IsSymbolicForm number script symbolic marks)
    (hnumber : ∀ place < marks.length, number place = number' place) :
    IsSymbolicForm number' script symbolic marks where
  ascending := h.ascending
  mem_marks_iff := h.mem_marks_iff
  labelNumbers_eq := h.labelNumbers_eq.trans
    (List.map_congr_left fun place hmem => hnumber place (List.mem_range.mp hmem))
  label_placed := h.label_placed
  length_unlabelled := h.length_unlabelled
  unchanged := h.unchanged
  jump_numbered := fun i index instruction distance hi hvalue => by
    obtain ⟨place, target, hjump, hmark, hresult⟩ := h.jump_numbered i index instruction distance hi hvalue
    rw [hnumber place (List.getElem?_eq_some_iff.mp hmark).1] at hresult
    exact ⟨place, target, hjump, hmark, hresult⟩

section

variable {script symbolic : Script}
  (hlabels : ∀ instruction ∈ script, instruction.isLabel = false)
  (h : script.insertLabels = .ok symbolic)

include hlabels

/-- The marked boundaries are those to which jumps lead. -/
theorem mem_marked_iff (hlead : ∀ i target, script.JumpsTo i target → script.IsBoundary target)
    (boundary : Nat) : boundary ∈ script.marked ↔ ∃ i, script.JumpsTo i boundary := by
  rw [marked, List.mem_filter, List.contains_iff_mem, mem_targets_iff_jumpsTo hlead]
  refine and_iff_right_of_imp ?_
  rintro ⟨i, hjump⟩
  obtain ⟨b, hb, heq⟩ := (isBoundary_iff hlabels).mp (hlead i boundary hjump)
  exact Nat.cast_inj.mp heq ▸ hb

include h

/-- An inserted label stands alone at its boundary, behind the labels of the marks in
front of that boundary. -/
theorem label_placed_of_insertLabels {front back : Script} {number : Nat}
    (hsplit : symbolic = front ++ .label number :: back) :
    script.marked[(labelNumbers front).length]? = some (script.startAt (unlabelled front).length)
      ∧ back.head? = (unlabelled symbolic)[(unlabelled front).length]? := by
  obtain ⟨before, hrun, hfront⟩ := labelRuns_at_label front number back
  obtain ⟨-, hruns, -⟩ := (insertLabels_eq_ok hlabels).mp h
  rw [← hsplit, hruns, List.getElem?_map, getElem?_numberWhere, Option.map_map,
    Option.map_eq_some_iff] at hrun
  rw [← hsplit, hruns, ← List.map_take, take_numberWhere, ← List.map_flatten,
    flatten_numberWhere] at hfront
  obtain ⟨boundary, hboundary, hrun⟩ := hrun
  have hstart : boundary = script.startAt (unlabelled front).length := by
    rw [boundaries_eq_map hlabels, List.getElem?_map, Option.map_eq_some_iff] at hboundary
    obtain ⟨i, hi, rfl⟩ := hboundary
    obtain ⟨hlt, rfl⟩ := List.getElem?_eq_some_iff.mp hi
    rw [List.getElem_range]
  rw [Function.comp_apply] at hrun
  -- a run of one label at most, with this one in it
  split_ifs at hrun with hmarked
  · rw [List.map_singleton, eq_comm, List.append_eq_singleton_iff] at hrun
    obtain ⟨rfl, hlabel⟩ := hrun.resolve_right (fun h => nomatch h.2)
    obtain ⟨-, hback⟩ := List.cons_eq_cons.mp hlabel
    refine ⟨?_, ?_⟩
    · rw [hfront, List.append_nil, List.length_map, List.length_range', ← hstart]
      exact getElem?_filter_countP_take hboundary hmarked
    · rw [hsplit, unlabelled_concat, unlabelled_label, List.getElem?_append_right le_rfl,
        Nat.sub_self]
      exact head?_of_labelRuns hback
  · exact absurd hrun.symm (by simp)

/-- **What labels are inserted into** takes the symbolic form of the script, with the
marked boundaries as its marks. -/
theorem isSymbolicForm_of_insertLabels :
    IsSymbolicForm labelNumber script symbolic script.marked := by
  obtain ⟨hplaces, -, hinstructions⟩ := (insertLabels_eq_ok hlabels).mp h
  have hlead := (leadsToBoundary_iff hlabels).mp hplaces
  have hget : ∀ (i : Nat) (instruction : Instruction), script[i]? = some instruction →
      script.placed[i]? = some ⟨instruction, script.startAt i, i⟩
        ∧ (unlabelled symbolic)[i]?
          = some (script.symbolicAt ⟨instruction, script.startAt i, i⟩) := fun i instruction hi => by
    rw [hinstructions, List.getElem?_map, getElem?_placed, hi]
    exact ⟨rfl, rfl⟩
  refine
    { ascending := (pairwise_boundaries script).filter _
      mem_marks_iff := mem_marked_iff hlabels hlead
      labelNumbers_eq :=
        (labelNumbers_eq_flatten symbolic).trans (flatten_labelRuns_of_insertLabels hlabels h)
      label_placed := fun _ _ _ => label_placed_of_insertLabels hlabels h
      length_unlabelled := ?_
      unchanged := fun i instruction hi hvalue => ?_
      jump_numbered := fun i index instruction distance hi hvalue => ?_ }
  · rw [hinstructions, List.length_map]
    conv_rhs => rw [← map_instruction_placed script, List.length_map]
  · rw [(hget i instruction hi).2, symbolicAt_of_not_jump hvalue]
  · obtain ⟨hplaced, hsymbolic⟩ := hget i instruction hi
    have hmem := List.mem_of_getElem? hplaced
    obtain ⟨hnone, -⟩ | ⟨_, _, target, hjump, htarget, hmarked, hresult⟩ :=
      symbolicAt_cases hmem (hplaces _ hmem)
    · exact nomatch hnone.symm.trans hvalue
    · obtain ⟨rfl, rfl⟩ := Prod.mk.inj (Option.some.inj (hjump.symm.trans hvalue))
      refine ⟨script.marked.idxOf target, target, jumpsTo_iff.mpr ⟨_, hplaced, htarget⟩, ?_,
        hsymbolic.trans (congrArg some hresult)⟩
      rw [List.getElem?_eq_getElem (List.idxOf_lt_length_of_mem hmarked), List.getElem_idxOf]

end

/-! ## Inserting labels -/

/-- **Inserting labels is exact**, for every script without labels: it fails if some
jump leads to no boundary, and then the first one of these decides the error; otherwise
the result is the script in symbolic form. Labels are numbered in words of 32 bits, that
is by their places if there are at most `2 ^ 32`. The distances from which the targets are
computed are, in a script that was decoded, the ones that stand in its bytecode. -/
theorem insertLabels_exact {script : Script}
    (hlabels : ∀ instruction ∈ script, instruction.isLabel = false) :
    ((∃ e, script.insertLabels = .error e)
        ↔ ∃ i target, script.JumpsTo i target ∧ ¬script.IsBoundary target)
      ∧ (∀ e, script.insertLabels = .error e →
        ∃ i target, script.JumpsTo i target ∧ ¬script.IsBoundary target
          ∧ (∀ j < i, ∀ t, script.JumpsTo j t → script.IsBoundary t)
          ∧ e = .jumpOffBoundary i target)
      ∧ (∀ symbolic, script.insertLabels = .ok symbolic →
        ∃ marks, IsSymbolicForm labelNumber script symbolic marks
          ∧ (marks.length ≤ 2 ^ 32 → IsSymbolicForm id script symbolic marks))
      ∧ ∀ bytes, decode bytes = .ok script →
        ∀ (i index : Nat) (instruction : Instruction) (distance : Int),
          script[i]? = some instruction → instruction.jumpValue? = some (index, distance) →
            ∃ operand offset, instruction.operands[index]? = some operand
              ∧ instruction.jumpOffset? = some offset
              ∧ IsDistanceAt bytes (script.startAt i + offset) operand.format.kind distance := by
  refine ⟨⟨?_, ?_⟩, fun e => (insertLabels_eq_error hlabels).mp,
    fun symbolic h => ⟨_, isSymbolicForm_of_insertLabels hlabels h, fun hcount =>
      (isSymbolicForm_of_insertLabels hlabels h).congr fun place hplace =>
        labelNumber_of_lt (hplace.trans_le hcount)⟩,
    fun bytes hdecode i index instruction distance => isDistanceAt_of_decode hdecode⟩
  · rintro ⟨e, h⟩
    obtain ⟨i, target, hjump, hboundary, -⟩ := (insertLabels_eq_error hlabels).mp h
    exact ⟨i, target, hjump, hboundary⟩
  · rintro ⟨i, target, hjump, hboundary⟩
    cases h : script.insertLabels with
    | error e => exact ⟨e, rfl⟩
    | ok symbolic =>
      exact absurd ((exists_insertLabels_iff hlabels).mp ⟨symbolic, h⟩ i target hjump) hboundary

/-- Two jumps share the label of the last of them, and a third leads to the end. -/
theorem insertLabels_exact_shared :
    decode [0x10, 3, 0x12, 2, 0x12, 0, 0x11, 2, 0]
        = .ok [.ordinary 0x10 [.ofKind .shortJump 3], .ordinary 0x12 [.ofKind .shortJump 2],
          .ordinary 0x12 [.ofKind .shortJump 0], .ordinary 0x11 [.ofKind .longJump 2]]
      ∧ ∃ marks, marks.length = 3
        ∧ IsSymbolicForm id
          [.ordinary 0x10 [.ofKind .shortJump 3], .ordinary 0x12 [.ofKind .shortJump 2],
            .ordinary 0x12 [.ofKind .shortJump 0], .ordinary 0x11 [.ofKind .longJump 2]]
          [.label 0, .ordinary 0x10 [.ofKind .shortJump 1], .ordinary 0x12 [.ofKind .shortJump 0],
            .label 1, .ordinary 0x12 [.ofKind .shortJump 1], .ordinary 0x11 [.ofKind .longJump 2],
            .label 2] marks := by
  refine ⟨by decide +kernel, ?_⟩
  have hinsert : insertLabels [.ordinary 0x10 [.ofKind .shortJump 3],
        .ordinary 0x12 [.ofKind .shortJump 2], .ordinary 0x12 [.ofKind .shortJump 0],
        .ordinary 0x11 [.ofKind .longJump 2]]
      = .ok [.label 0, .ordinary 0x10 [.ofKind .shortJump 1], .ordinary 0x12 [.ofKind .shortJump 0],
        .label 1, .ordinary 0x12 [.ofKind .shortJump 1], .ordinary 0x11 [.ofKind .longJump 2],
        .label 2] := by decide +kernel
  obtain ⟨marks, hform, hplaces⟩ := (insertLabels_exact (by decide +kernel)).2.2.1 _ hinsert
  have hlength : 3 = marks.length := by
    have hnumbers := congrArg List.length hform.labelNumbers_eq
    rwa [List.length_map, List.length_range] at hnumbers
  exact ⟨marks, hlength.symm, hplaces (hlength.symm.trans_le (by decide))⟩

/-- **A ladder with one rung more than there are words** gets one label for each rung,
and the last of these has the number of the first: none is numbered by the last place. -/
theorem ladder_numbers_repeat :
    ∃ symbolic, insertLabels (List.replicate (2 ^ 32 + 1) rung) = .ok symbolic
      ∧ symbolic.labelNumbers.length = 2 ^ 32 + 1
      ∧ ¬symbolic.labelNumbers.Nodup
      ∧ 2 ^ 32 ∉ symbolic.labelNumbers := by
  obtain ⟨symbolic, hsymbolic⟩ := exists_insertLabels_rungs (2 ^ 32 + 1)
  have hnumbers := (isSymbolicForm_of_insertLabels isLabel_rungs hsymbolic).labelNumbers_eq
  rw [length_marked_rungs] at hnumbers
  refine ⟨symbolic, hsymbolic, ?_, ?_, ?_⟩ <;> rw [hnumbers]
  · rw [List.length_map, List.length_range]
  · rw [nodup_map_labelNumber]
    exact Nat.not_succ_le_self _
  · rw [mem_map_labelNumber]
    exact fun hmem => Nat.lt_irrefl _ hmem.2

end FieldMap.Script
