import FieldMap.Proofs.Labels

/-!
# Where the jumps of a script lead

The instruction at a position of a script starts where the ones in front of it end
(`startAt`), and behind the last one the script itself ends. These bytes are the
boundaries of a script, and a jump leads to some byte, on a boundary or not
(`JumpsTo`, `IsBoundary`). Both are said here in terms of positions, lengths and the
distances that jumps hold, without the lists that inserting labels goes through.

Inserting labels succeeds if every jump leads to a boundary, and the first jump that
does not decides the error (`exists_insertLabels_iff`, `insertLabels_eq_error`).
-/

namespace FieldMap.Script

/-! ## Places by position -/

/-- **Where the instruction at a position starts**; behind the last one, the end of the
script. -/
def startAt (script : Script) (i : Nat) : Nat := byteLength (script.take i)

theorem startAt_cons (instruction : Instruction) (rest : Script) (i : Nat) :
    startAt (instruction :: rest) (i + 1) = instruction.length + startAt rest i := by
  rw [startAt, List.take_succ_cons, byteLength_cons, startAt]

theorem getElem?_placed (script : Script) (i : Nat) :
    script.placed[i]? = script[i]?.map fun instruction => ⟨instruction, script.startAt i, i⟩ := by
  have h : ∀ start index, (placedFrom start index script)[i]?
      = script[i]?.map fun instruction => ⟨instruction, start + script.startAt i, index + i⟩ := by
    induction script generalizing i with
    | nil => exact fun _ _ => rfl
    | cons instruction rest ih =>
      intro start index
      cases i with
      | zero => rfl
      | succ i =>
        rw [placedFrom, List.getElem?_cons_succ, List.getElem?_cons_succ, ih, startAt_cons,
          ← Nat.add_assoc, Nat.add_assoc index, Nat.add_comm 1]
  have hplaced := h 0 0
  rw [← placed_eq] at hplaced
  simpa only [Nat.zero_add] using hplaced

theorem startsFrom_eq_map (start : Nat) (script : Script) :
    startsFrom start script = (List.range (script.length + 1)).map fun i => start + script.startAt i := by
  induction script generalizing start with
  | nil => rfl
  | cons instruction rest ih =>
    rw [startsFrom_cons, ih, List.length_cons, List.range_succ_eq_map (n := rest.length + 1),
      List.map_cons, List.map_map]
    refine congrArg (start :: ·) (List.map_congr_left fun i _ => ?_)
    rw [Function.comp_apply, startAt_cons, Nat.add_assoc]

/-- **The boundaries of a script without labels**: every start, and the end. -/
theorem boundaries_eq_map {script : Script}
    (hlabels : ∀ instruction ∈ script, instruction.isLabel = false) :
    script.boundaries = (List.range (script.length + 1)).map script.startAt := by
  rw [boundaries_eq, unlabelled_eq_self hlabels, startsFrom_eq_map]
  simp only [Nat.zero_add]

/-! ## Jumps by position -/

/-- **The jump at a position leads to a byte**: as far back from its own start as it
says, or as far on from the byte at which its distance is stored. -/
def JumpsTo (script : Script) (i : Nat) (target : Int) : Prop :=
  ∃ instruction index distance offset, script[i]? = some instruction
    ∧ instruction.jumpValue? = some (index, distance)
    ∧ instruction.jumpOffset? = some offset
    ∧ target = if instruction.isBackJump then script.startAt i - distance
        else script.startAt i + offset + distance

/-- **A boundary of a script**: the start of an instruction, or the end. -/
def IsBoundary (script : Script) (target : Int) : Prop :=
  ∃ i ≤ script.length, (script.startAt i : Int) = target

theorem jumpsTo_iff {script : Script} {i : Nat} {target : Int} :
    script.JumpsTo i target
      ↔ ∃ place, script.placed[i]? = some place
        ∧ place.instruction.target? place.start = some target := by
  rw [getElem?_placed]
  simp only [Option.map_eq_some_iff, exists_exists_and_eq_and]
  refine exists_congr fun instruction => ?_
  unfold Instruction.target?
  constructor
  · rintro ⟨index, distance, offset, hget, hvalue, hoffset, rfl⟩
    rw [hvalue, hoffset]
    exact ⟨hget, rfl⟩
  · rintro ⟨hget, htarget⟩
    obtain ⟨⟨index, distance⟩, hvalue, rfl⟩ := Option.map_eq_some_iff.mp htarget
    have hindex := (Instruction.jumpValue?_eq_some.mp hvalue).1
    obtain ⟨offset, hoffset⟩ : ∃ offset, instruction.jumpOffset? = some offset :=
      ⟨_, Option.map_eq_some_iff.mpr ⟨index, hindex, rfl⟩⟩
    refine ⟨index, distance, offset, hget, hvalue, hoffset, ?_⟩
    rw [hoffset]
    rfl

theorem isBoundary_iff {script : Script}
    (hlabels : ∀ instruction ∈ script, instruction.isLabel = false) {target : Int} :
    script.IsBoundary target ↔ ∃ boundary ∈ script.boundaries, (boundary : Int) = target := by
  rw [boundaries_eq_map hlabels]
  simp only [List.mem_map, List.mem_range, Nat.lt_succ_iff, exists_exists_and_eq_and]
  rfl

/-- The boundaries that jumps lead to are the targets of the script. -/
theorem mem_targets_iff_jumpsTo {script : Script} {boundary : Nat}
    (hlead : ∀ i target, script.JumpsTo i target → script.IsBoundary target) :
    boundary ∈ script.targets ↔ ∃ i, script.JumpsTo i boundary := by
  rw [mem_targets]
  constructor
  · rintro ⟨place, hplace, htarget⟩
    obtain ⟨i, hi⟩ := List.mem_iff_getElem?.mp hplace
    obtain ⟨target, hplaceTarget, rfl⟩ := Option.map_eq_some_iff.mp htarget
    have hjump := jumpsTo_iff.mpr ⟨place, hi, hplaceTarget⟩
    obtain ⟨j, -, rfl⟩ := hlead i target hjump
    exact ⟨i, hjump⟩
  · rintro ⟨i, hjump⟩
    obtain ⟨place, hi, htarget⟩ := jumpsTo_iff.mp hjump
    exact ⟨place, List.mem_of_getElem? hi, by rw [htarget]; rfl⟩

/-! ## When labels can be inserted -/

theorem leadsToBoundary_iff {script : Script}
    (hlabels : ∀ instruction ∈ script, instruction.isLabel = false) :
    (∀ place ∈ script.placed, LeadsToBoundary script.boundaries place)
      ↔ ∀ i target, script.JumpsTo i target → script.IsBoundary target := by
  simp only [isBoundary_iff hlabels, jumpsTo_iff]
  constructor
  · rintro h i target ⟨place, hi, htarget⟩
    exact h place (List.mem_of_getElem? hi) target htarget
  · intro h place hplace target htarget
    obtain ⟨i, hi⟩ := List.mem_iff_getElem?.mp hplace
    exact h i target ⟨place, hi, htarget⟩

/-- A jump to any other byte is refused, with its position and that byte. -/
theorem jumpSite_eq_error {boundaries : List Nat} {place : PlacedInstruction} {e : CodecError} :
    jumpSite boundaries place = .error e
      ↔ ∃ target, place.instruction.target? place.start = some target
        ∧ ¬(∃ boundary ∈ boundaries, (boundary : Int) = target)
        ∧ e = .jumpOffBoundary place.index target := by
  have hrefused : ∀ target, place.instruction.target? place.start = some target →
      jumpSite boundaries place = .error (.jumpOffBoundary place.index target)
        ∨ ∃ boundary ∈ boundaries, (boundary : Int) = target := fun target htarget => by
    unfold jumpSite
    rw [htarget]
    dsimp only
    split_ifs with h
    · exact .inr ⟨_, List.contains_iff_mem.mp h.2, Int.toNat_of_nonneg h.1⟩
    · exact .inl rfl
  constructor
  · intro h
    obtain ⟨target, htarget⟩ : ∃ target, place.instruction.target? place.start = some target := by
      rw [← Option.ne_none_iff_exists']
      intro hnone
      unfold jumpSite at h
      rw [hnone] at h
      exact nomatch h
    have hboundary : ¬∃ boundary ∈ boundaries, (boundary : Int) = target := fun hboundary => by
      have hlead : LeadsToBoundary boundaries place := fun t ht =>
        Option.some.inj (htarget.symm.trans ht) ▸ hboundary
      exact nomatch h.symm.trans (jumpSite_eq_ok.mpr ⟨hlead, rfl⟩)
    have herror := (hrefused target htarget).resolve_right hboundary
    exact ⟨target, htarget, hboundary, Except.error.inj (h.symm.trans herror)⟩
  · rintro ⟨target, htarget, hboundary, rfl⟩
    exact (hrefused target htarget).resolve_right hboundary

/-- **The first jump that leads to no boundary** decides the error. -/
theorem insertLabels_eq_error {script : Script}
    (hlabels : ∀ instruction ∈ script, instruction.isLabel = false) {e : CodecError} :
    script.insertLabels = .error e
      ↔ ∃ i target, script.JumpsTo i target ∧ ¬script.IsBoundary target
        ∧ (∀ j < i, ∀ t, script.JumpsTo j t → script.IsBoundary t)
        ∧ e = .jumpOffBoundary i target := by
  have hsites : script.insertLabels = .error e
      ↔ script.placed.mapM (jumpSite script.boundaries) = .error e := by
    unfold insertLabels
    exact Except.bind_pure_eq_error
  have hindex : ∀ (i : Nat) (place : PlacedInstruction), script.placed[i]? = some place →
      place.index = i := fun i place hi => by
    rw [getElem?_placed] at hi
    obtain ⟨instruction, -, rfl⟩ := Option.map_eq_some_iff.mp hi
    rfl
  rw [hsites, List.mapM_eq_error]
  simp only [jumpSite_eq_error, jumpSite_eq_ok, exists_and_left, exists_eq, and_true,
    isBoundary_iff hlabels, jumpsTo_iff]
  constructor
  · rintro ⟨i, place, hi, ⟨target, htarget, hboundary, rfl⟩, hfront⟩
    refine ⟨i, target, ⟨place, hi, htarget⟩, hboundary, ?_, by rw [hindex i place hi]⟩
    rintro j hj t ⟨before, hbefore, ht⟩
    exact hfront j hj before hbefore t ht
  · rintro ⟨i, target, ⟨place, hi, htarget⟩, hboundary, hfront, rfl⟩
    refine ⟨i, place, hi, ⟨target, htarget, hboundary, by rw [hindex i place hi]⟩, ?_⟩
    exact fun j hj before hbefore t ht => hfront j hj t ⟨before, hbefore, ht⟩

/-- **Labels can be inserted** if every jump leads to a boundary. -/
theorem exists_insertLabels_iff {script : Script}
    (hlabels : ∀ instruction ∈ script, instruction.isLabel = false) :
    (∃ symbolic, script.insertLabels = .ok symbolic)
      ↔ ∀ i target, script.JumpsTo i target → script.IsBoundary target := by
  constructor
  · rintro ⟨symbolic, h⟩
    exact (leadsToBoundary_iff hlabels).mp ((insertLabels_eq_ok hlabels).mp h).1
  · intro hlead
    cases h : script.insertLabels with
    | ok symbolic => exact ⟨symbolic, rfl⟩
    | error e =>
      obtain ⟨i, target, hjump, hboundary, -⟩ := (insertLabels_eq_error hlabels).mp h
      exact absurd (hlead i target hjump) hboundary

end FieldMap.Script
