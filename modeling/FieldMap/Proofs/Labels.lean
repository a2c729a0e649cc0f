import FieldMap.Proofs.LabelRuns

/-!
# Inserting and resolving labels

Both passes are described by the runs of labels of a script and by its
instructions. Resolving asks that no number stands in two places, and gives
each jump the distance from its own boundary to the boundary of the label it
names (`resolveLabels_eq_ok`). Inserting asks that every jump leads to a
boundary, numbers the boundaries that some jump leads to in ascending order,
and gives each jump the number of its own (`insertLabels_eq_ok`).

The number of a label is a word of 32 bits, so labels are told apart as long
as there are at most `2 ^ 32` of them (`nodup_map_labelNumber`). What was
inserted can then be resolved: the instructions keep their lengths, so the
boundaries of the symbolic script are those of the script, and the distance
that comes back is the one that was there (`resolveLabels_of_insertLabels`).
With more labels than that the numbers start over, and resolving finds one
that it has seen (`redefined_of_insertLabels`).
-/

namespace FieldMap

/-! ## Numbering some entries of a list -/

section Numbering

variable {α β : Type}

/-- **The entries that satisfy a predicate, numbered** in their order: one
number for each of these, and none for the others. -/
def numberWhere (p : α → Bool) (next : Nat) : List α → List (List Nat)
  | [] => []
  | a :: rest =>
    if p a then [next] :: numberWhere p (next + 1) rest else [] :: numberWhere p next rest

@[simp] theorem length_numberWhere (p : α → Bool) (next : Nat) (as : List α) :
    (numberWhere p next as).length = as.length := by
  induction as generalizing next with
  | nil => rfl
  | cons a rest ih =>
    rw [numberWhere]
    split_ifs <;> rw [List.length_cons, List.length_cons, ih]

/-- The numbers ascend without a gap. -/
theorem flatten_numberWhere (p : α → Bool) (next : Nat) (as : List α) :
    (numberWhere p next as).flatten = List.range' next (as.countP p) := by
  induction as generalizing next with
  | nil => rfl
  | cons a rest ih =>
    rw [numberWhere, List.countP_cons]
    split_ifs with h
    · rw [List.flatten_cons, ih, List.range'_succ]
      rfl
    · rw [List.flatten_cons, ih]
      rfl

theorem take_numberWhere (p : α → Bool) (next i : Nat) (as : List α) :
    (numberWhere p next as).take i = numberWhere p next (as.take i) := by
  induction as generalizing next i with
  | nil => rw [List.take_nil, numberWhere, List.take_nil]
  | cons a rest ih =>
    cases i with
    | zero => rfl
    | succ i =>
      rw [List.take_succ_cons, numberWhere, numberWhere]
      split_ifs <;> rw [List.take_succ_cons, ih]

/-- An entry that satisfies the predicate is numbered by how many of those in
front of it do. -/
theorem getElem?_numberWhere (p : α → Bool) (next i : Nat) (as : List α) :
    (numberWhere p next as)[i]?
      = as[i]?.map fun a => if p a then [next + (as.take i).countP p] else [] := by
  induction as generalizing next i with
  | nil => rfl
  | cons a rest ih =>
    cases i with
    | zero =>
      rw [numberWhere, List.getElem?_cons_zero, Option.map_some, List.take_zero, List.countP_nil]
      split_ifs <;> rfl
    | succ i =>
      have hnext : ∀ shift : Nat, (numberWhere p (next + shift) rest)[i]?
          = rest[i]?.map fun b => if p b then [next + ((rest.take i).countP p + shift)] else [] :=
        fun shift => by
          rw [ih]
          simp only [Nat.add_assoc, Nat.add_comm shift]
      rw [numberWhere, List.getElem?_cons_succ, List.take_succ_cons, List.countP_cons]
      split_ifs
      · rw [List.getElem?_cons_succ]
        exact hnext 1
      · rw [List.getElem?_cons_succ]
        exact hnext 0

/-- Where an entry stands among those that satisfy the predicate. -/
theorem getElem?_filter_countP_take {p : α → Bool} {as : List α} {i : Nat} {a : α}
    (h : as[i]? = some a) (hp : p a = true) :
    (as.filter p)[(as.take i).countP p]? = some a := by
  obtain ⟨hlt, rfl⟩ := List.getElem?_eq_some_iff.mp h
  have hsplit := List.take_append_drop i as
  rw [List.drop_eq_getElem_cons hlt] at hsplit
  conv_lhs => rw [← hsplit]
  rw [List.filter_append, List.filter_cons_of_pos hp, List.take_append_of_le_length (by simp; omega),
    List.take_take, Nat.min_self, List.countP_eq_length_filter,
    List.getElem?_append_right le_rfl, Nat.sub_self, List.getElem?_cons_zero]

/-- Only the truth of the predicate counts. -/
theorem numberWhere_congr {p : α → Bool} {q : β → Bool} {as : List α} {bs : List β}
    (h : as.map p = bs.map q) (next : Nat) : numberWhere p next as = numberWhere q next bs := by
  induction as generalizing next bs with
  | nil =>
    rw [List.map_nil, eq_comm, List.map_eq_nil_iff] at h
    rw [h]
    rfl
  | cons a rest ih =>
    cases bs with
    | nil => exact absurd h (by simp)
    | cons b tail =>
      rw [List.map_cons, List.map_cons, List.cons.injEq] at h
      rw [numberWhere, numberWhere, h.1, ih h.2, ih h.2]

/-- **The number of an entry is its place among those that satisfy the
predicate.** -/
theorem map_idxOf?_filter [DecidableEq α] {p : α → Bool} {as : List α} (hnodup : as.Nodup) :
    (as.map fun a => ((as.filter p).idxOf? a).toList) = numberWhere p 0 as := by
  -- the entries that have their number already stand in front
  have h : ∀ front : List α, (∀ a ∈ as, a ∉ front) →
      (as.map fun a => ((front ++ as.filter p).idxOf? a).toList)
        = numberWhere p front.length as := by
    induction as with
    | nil => exact fun _ _ => rfl
    | cons a rest ih =>
      intro front hfront
      obtain ⟨ha, hrest⟩ := List.nodup_cons.mp hnodup
      have hafront : a ∉ front := hfront a List.mem_cons_self
      have hrestfront := fun b hb => hfront b (List.mem_cons_of_mem a hb)
      rw [numberWhere, List.map_cons]
      split_ifs with hp
      · rw [List.filter_cons_of_pos hp]
        have hhere : (front ++ a :: rest.filter p).idxOf? a = some front.length := by
          rw [List.idxOf?_eq_some_iff]
          refine ⟨by simp, by simp, fun j hj => ?_⟩
          rw [List.getElem_append_left hj]
          exact fun heq => hafront (heq ▸ List.getElem_mem hj)
        have hnext := ih hrest (front ++ [a]) (fun b hb hmem => by
          rcases List.mem_append.mp hmem with hmem | hmem
          · exact hrestfront b hb hmem
          · exact ha (List.mem_singleton.mp hmem ▸ hb))
        rw [List.append_assoc, List.singleton_append, List.length_append,
          List.length_singleton] at hnext
        rw [hhere, hnext]
        rfl
      · rw [List.filter_cons_of_neg hp]
        have hhere : (front ++ rest.filter p).idxOf? a = none := by
          rw [List.idxOf?_eq_none_iff, List.mem_append, not_or]
          exact ⟨hafront, fun hmem => ha (List.mem_of_mem_filter hmem)⟩
        rw [hhere, ih hrest front hrestfront]
        rfl
  exact h [] (fun _ _ => List.not_mem_nil)

end Numbering

/-- In a table without double keys, looking up a key finds its entry. -/
theorem lookup_eq_some_iff_mem {α β : Type} [DecidableEq α] {entries : List (α × β)} {a : α} {b : β}
    (hnodup : (entries.map Prod.fst).Nodup) : entries.lookup a = some b ↔ (a, b) ∈ entries := by
  induction entries with
  | nil => simp
  | cons entry rest ih =>
    obtain ⟨c, d⟩ := entry
    obtain ⟨hc, hrest⟩ := List.nodup_cons.mp hnodup
    rw [List.lookup_cons, List.mem_cons, Prod.mk.injEq]
    by_cases hac : a = c
    · subst hac
      have hnot : (a, b) ∉ rest := fun hmem => hc (List.mem_map.mpr ⟨(a, b), hmem, rfl⟩)
      simp [hnot, eq_comm]
    · simp [hac, beq_false_of_ne hac, ih hrest]

namespace Script

/-! ## Resolving -/

/-- **What resolving makes of an instruction** at a place: a jump gets the
distance to the label that it names, which has to fit. -/
def Resolves (labels : List (Nat × Nat)) (place : Instruction × Nat) (result : Instruction) : Prop :=
  (place.1.jumpValue? = none ∧ result = place.1)
    ∨ ∃ index number target, place.1.jumpValue? = some (index, number)
      ∧ labelPlace? labels number = some target
      ∧ 0 ≤ place.1.distanceTo place.2 target
      ∧ place.1.distanceTo place.2 target
          ≤ (place.1.operands[index]?.map fun operand => operand.format.max).getD 0
      ∧ result = place.1.setValue index (place.1.distanceTo place.2 target)

theorem resolveJump_eq_ok {labels : List (Nat × Nat)} {place : PlacedInstruction}
    {result : Instruction} :
    resolveJump labels place = .ok result
      ↔ Resolves labels (place.instruction, place.start) result := by
  unfold resolveJump Resolves
  cases hvalue : place.instruction.jumpValue? with
  | none => simp [eq_comm]
  | some jump =>
    obtain ⟨index, number⟩ := jump
    dsimp only
    cases htarget : labelPlace? labels number with
    | none => simp [htarget]
    | some target =>
      dsimp only
      split_ifs with hfits
      · rw [Except.ok.injEq]
        constructor
        · rintro rfl
          exact .inr ⟨index, number, target, rfl, htarget, hfits.1, hfits.2, rfl⟩
        · rintro (⟨hnone, -⟩ | ⟨i, n, t, hjump, ht, -, -, rfl⟩)
          · exact nomatch hnone
          · obtain ⟨rfl, rfl⟩ := Prod.mk.inj (Option.some.inj hjump)
            rw [Option.some.inj (htarget.symm.trans ht)]
      · refine iff_of_false (fun h => nomatch h) ?_
        rintro (⟨hnone, -⟩ | ⟨i, n, t, hjump, ht, hpos, hmax, -⟩)
        · exact nomatch hnone
        · obtain ⟨rfl, rfl⟩ := Prod.mk.inj (Option.some.inj hjump)
          rw [← Option.some.inj (htarget.symm.trans ht)] at hpos hmax
          exact hfits ⟨hpos, hmax⟩

/-- No label is refused if the numbers differ from each other and from those
that have been seen. -/
theorem redefinition?_eq_none {seen : List Nat} {places : List PlacedInstruction} :
    redefinition? seen places = none
      ↔ ((labelPlaces places).map Prod.fst).Nodup
        ∧ ∀ number ∈ (labelPlaces places).map Prod.fst, number ∉ seen := by
  induction places generalizing seen with
  | nil => simp [redefinition?, labelPlaces]
  | cons place rest ih =>
    obtain ⟨instruction, start, index⟩ := place
    cases instruction with
    | label number =>
      have hhead : (labelPlaces (⟨.label number, start, index⟩ :: rest)).map Prod.fst
          = number :: (labelPlaces rest).map Prod.fst := rfl
      rw [hhead, redefinition?]
      simp only [List.contains_iff_mem, List.nodup_cons, List.forall_mem_cons]
      split_ifs with hseen
      · exact iff_of_false (fun h => nomatch h) (fun h => h.2.1 hseen)
      · rw [ih]
        simp only [List.mem_cons, not_or]
        constructor
        · rintro ⟨hnodup, hnew⟩
          exact ⟨⟨fun hmem => (hnew number hmem).1 rfl, hnodup⟩, hseen,
            fun n hn => (hnew n hn).2⟩
        · rintro ⟨⟨hnot, hnodup⟩, -, hnew⟩
          exact ⟨hnodup, fun n hn => ⟨fun heq => hnot (heq ▸ hn), hnew n hn⟩⟩
    | _ => exact ih

theorem map_fst_labelPlaces_placed (script : Script) :
    (labelPlaces script.placed).map Prod.fst = (labelRuns script).flatten := by
  have hrun : ∀ mark : List Nat × Nat,
      (mark.1.map fun number => (number, mark.2)).map Prod.fst = mark.1 := fun mark => by
    rw [List.map_map]
    exact List.map_id' mark.1
  rw [labelPlaces_placed, List.map_flatMap, ← map_fst_marks, List.flatten_eq_flatMap,
    List.flatMap_map]
  exact congrArg (List.flatMap · script.marks) (funext hrun)

/-- **When resolving succeeds**, and with what. -/
theorem resolveLabels_eq_ok {script result : Script} :
    resolveLabels script = .ok result
      ↔ (labelRuns script).flatten.Nodup
        ∧ List.Forall₂ (Resolves (labelPlaces script.placed))
          ((unlabelled script).zip script.boundaries) result := by
  unfold resolveLabels
  have hnone : redefinition? [] script.placed = none ↔ (labelRuns script).flatten.Nodup := by
    rw [redefinition?_eq_none, map_fst_labelPlaces_placed]
    exact and_iff_left (fun _ _ => List.not_mem_nil)
  cases hdefined : redefinition? [] script.placed with
  | some e =>
    refine iff_of_false (fun h => nomatch h) (fun h => ?_)
    exact absurd (hdefined.symm.trans (hnone.mpr h.1)) (by simp)
  | none =>
    dsimp only
    rw [List.mapM_eq_ok, ← unlabelled_placed, List.forall₂_map_left_iff]
    simp only [resolveJump_eq_ok]
    exact (and_iff_right (hnone.mp hdefined)).symm

/-- A number names the byte that some label with this number marks. -/
theorem labelPlace?_iff_mem {labels : List (Nat × Nat)} (hkeys : (labels.map Prod.fst).Nodup)
    {number : Int} {target : Nat} :
    labelPlace? labels number = some target
      ↔ ∃ n : Nat, (n, target) ∈ labels ∧ (n : Int) = number := by
  unfold labelPlace?
  split_ifs with hpos
  · obtain ⟨n, rfl⟩ := Int.eq_ofNat_of_zero_le hpos
    rw [Int.toNat_natCast, lookup_eq_some_iff_mem hkeys]
    simp only [Nat.cast_inj, exists_eq_right]
  · refine iff_of_false (fun h => nomatch h) ?_
    rintro ⟨n, -, rfl⟩
    exact hpos (Int.natCast_nonneg n)

/-- **A number names the boundary at which its label stands.** -/
theorem labelPlace?_eq_some {script : Script} (hnodup : (labelRuns script).flatten.Nodup)
    {number : Int} {target : Nat} :
    labelPlace? (labelPlaces script.placed) number = some target
      ↔ ∃ mark ∈ script.marks, mark.2 = target ∧ ∃ n ∈ mark.1, (n : Int) = number := by
  have hkeys : ((labelPlaces script.placed).map Prod.fst).Nodup := by
    rw [map_fst_labelPlaces_placed]
    exact hnodup
  rw [labelPlace?_iff_mem hkeys]
  simp only [labelPlaces_placed, List.mem_flatMap, List.mem_map, Prod.mk.injEq]
  constructor
  · rintro ⟨n, ⟨mark, hmark, m, hm, rfl, rfl⟩, rfl⟩
    exact ⟨mark, hmark, rfl, m, hm, rfl⟩
  · rintro ⟨mark, hmark, rfl, n, hn, rfl⟩
    exact ⟨n, ⟨mark, hmark, n, hn, rfl, rfl⟩, rfl⟩

/-! ## The numbers of labels -/

theorem labelNumber_eq_mod (place : Nat) : labelNumber place = place % 2 ^ 32 :=
  UInt32.toNat_ofNat'

theorem labelNumber_lt (place : Nat) : labelNumber place < 2 ^ 32 := (UInt32.ofNat place).toNat_lt

/-- The number of a label is its place, as far as words of 32 bits reach. -/
theorem labelNumber_of_lt {place : Nat} (h : place < 2 ^ 32) : labelNumber place = place := by
  rw [labelNumber_eq_mod, Nat.mod_eq_of_lt h]

theorem map_labelNumber_of_le {count : Nat} (h : count ≤ 2 ^ 32) :
    (List.range count).map labelNumber = List.range count := by
  have hself : (List.range count).map labelNumber = (List.range count).map id :=
    List.map_congr_left fun place hmem => labelNumber_of_lt ((List.mem_range.mp hmem).trans_le h)
  rw [hself, List.map_id]

theorem mem_map_labelNumber {count number : Nat} :
    number ∈ (List.range count).map labelNumber ↔ number < count ∧ number < 2 ^ 32 := by
  rw [List.mem_map]
  constructor
  · rintro ⟨place, hmem, rfl⟩
    have hle : labelNumber place ≤ place := (labelNumber_eq_mod place).trans_le (Nat.mod_le ..)
    exact ⟨hle.trans_lt (List.mem_range.mp hmem), labelNumber_lt place⟩
  · rintro ⟨hcount, hword⟩
    exact ⟨number, List.mem_range.mpr hcount, labelNumber_of_lt hword⟩

/-- **No two labels share a number** exactly if there are at most `2 ^ 32` of
them: the label behind these gets the number of the first. -/
theorem nodup_map_labelNumber {count : Nat} :
    ((List.range count).map labelNumber).Nodup ↔ count ≤ 2 ^ 32 := by
  refine ⟨fun hnodup => Nat.not_lt.mp fun hlt => ?_, fun hle => ?_⟩
  · have hsame : labelNumber (2 ^ 32) = labelNumber 0 := by decide
    have hfirst : 0 ∈ List.range count := List.mem_range.mpr (by omega)
    have hover := List.inj_on_of_nodup_map hnodup (List.mem_range.mpr hlt) hfirst hsame
    exact absurd hover (by decide)
  · rw [map_labelNumber_of_le hle]
    exact List.nodup_range

/-- Numbers that fit their words are kept. -/
theorem map_labelNumber_numberWhere {α : Type} {p : α → Bool} {as : List α}
    (h : as.countP p ≤ 2 ^ 32) :
    (numberWhere p 0 as).map (List.map labelNumber) = numberWhere p 0 as := by
  have hself : (numberWhere p 0 as).map (List.map labelNumber) = (numberWhere p 0 as).map id := by
    refine List.map_congr_left fun run hrun => ?_
    have hrunSelf : run.map labelNumber = run.map id := List.map_congr_left fun number hnumber => by
      have hmem := List.mem_flatten_of_mem hrun hnumber
      rw [flatten_numberWhere, List.mem_range'_1, Nat.zero_add] at hmem
      exact labelNumber_of_lt (hmem.2.trans_le h)
    rw [hrunSelf, List.map_id]
    rfl
  rw [hself, List.map_id]

/-! ## Inserting -/

/-- An instruction with the place to which it jumps. -/
def siteAt (place : PlacedInstruction) : JumpSite :=
  ⟨place.instruction, place.start, (place.instruction.target? place.start).map Int.toNat⟩

/-- Whether an instruction jumps to a boundary, if it jumps at all. -/
def LeadsToBoundary (boundaries : List Nat) (place : PlacedInstruction) : Prop :=
  ∀ target, place.instruction.target? place.start = some target →
    ∃ boundary ∈ boundaries, (boundary : Int) = target

/-- **The boundaries to which a script jumps**, in the order of the jumps. -/
def targets (script : Script) : List Nat := (script.placed.map siteAt).filterMap JumpSite.target?

/-- The boundaries that get a label, in ascending order. -/
def marked (script : Script) : List Nat := script.boundaries.filter script.targets.contains

/-- An instruction with the number of the label at its target. -/
def symbolicAt (script : Script) (place : PlacedInstruction) : Instruction :=
  JumpSite.symbolic script.marked (siteAt place)

theorem jumpSite_eq_ok {boundaries : List Nat} {place : PlacedInstruction} {site : JumpSite} :
    jumpSite boundaries place = .ok site
      ↔ LeadsToBoundary boundaries place ∧ site = siteAt place := by
  unfold jumpSite LeadsToBoundary siteAt
  cases htarget : place.instruction.target? place.start with
  | none => simp [eq_comm]
  | some target =>
    have hboundary : (0 ≤ target ∧ boundaries.contains target.toNat = true)
        ↔ ∃ boundary ∈ boundaries, (boundary : Int) = target := by
      rw [List.contains_iff_mem]
      constructor
      · rintro ⟨hpos, hmem⟩
        exact ⟨_, hmem, Int.toNat_of_nonneg hpos⟩
      · rintro ⟨boundary, hmem, rfl⟩
        exact ⟨Int.natCast_nonneg boundary, hmem⟩
    dsimp only
    split_ifs with h
    · rw [Except.ok.injEq, eq_comm]
      refine (and_iff_right ?_).symm
      intro t ht
      rw [← Option.some.inj ht]
      exact hboundary.mp h
    · exact iff_of_false (fun heq => nomatch heq) (fun heq => h (hboundary.mpr (heq.1 target rfl)))

/-- Sites with labels in front of them are the runs of these labels, woven
into the instructions of the sites. -/
theorem flatMap_labelAt (marked : List Nat) (sites : List JumpSite) (stop : Nat) :
    (sites.flatMap fun site => labelAt marked site.start ++ [JumpSite.symbolic marked site])
        ++ labelAt marked stop
      = weave ((sites.map JumpSite.start ++ [stop]).map fun b =>
          (marked.idxOf? b).toList.map labelNumber)
        (sites.map (JumpSite.symbolic marked)) := by
  have hlabel : ∀ b, labelAt marked b
      = ((marked.idxOf? b).toList.map labelNumber).map Instruction.label := fun b => by
    unfold labelAt
    cases marked.idxOf? b <;> rfl
  induction sites with
  | nil => exact hlabel stop
  | cons site rest ih =>
    rw [List.flatMap_cons, List.append_assoc, ih, hlabel]
    rw [List.append_assoc, List.singleton_append]
    rfl

theorem boundaries_eq_of_unlabelled {script : Script}
    (hlabels : ∀ instruction ∈ script, instruction.isLabel = false) :
    script.boundaries = script.placed.map PlacedInstruction.start ++ [script.byteLength] := by
  rw [boundaries_eq, unlabelled_eq_self hlabels, startsFrom_eq 0 0, placed_eq, Nat.zero_add]

theorem map_instruction_placed (script : Script) :
    script.placed.map PlacedInstruction.instruction = script := by
  have h : ∀ start index, (placedFrom start index script).map PlacedInstruction.instruction
      = script := by
    induction script with
    | nil => exact fun _ _ => rfl
    | cons instruction rest ih =>
      intro start index
      rw [placedFrom, List.map_cons, ih]
  rw [placed_eq, h]

theorem mem_of_mem_placed {script : Script} {place : PlacedInstruction}
    (h : place ∈ script.placed) : place.instruction ∈ script := by
  have hmem := List.mem_map_of_mem (f := PlacedInstruction.instruction) h
  rwa [map_instruction_placed] at hmem

theorem isLabel_symbolicAt (script : Script) (place : PlacedInstruction) :
    (script.symbolicAt place).isLabel = place.instruction.isLabel := by
  unfold symbolicAt JumpSite.symbolic siteAt
  split
  · exact Instruction.isLabel_setValue ..
  · rfl

theorem length_symbolicAt (script : Script) (place : PlacedInstruction) :
    (script.symbolicAt place).length = place.instruction.length := by
  unfold symbolicAt JumpSite.symbolic siteAt
  split
  · exact Instruction.length_setValue ..
  · rfl

/-- **When inserting succeeds**, and with what: the boundaries that some jump
leads to are numbered in their order, and each jump gets the number of its
own. -/
theorem insertLabels_eq_ok {script result : Script}
    (hlabels : ∀ instruction ∈ script, instruction.isLabel = false) :
    script.insertLabels = .ok result
      ↔ (∀ place ∈ script.placed, LeadsToBoundary script.boundaries place)
        ∧ labelRuns result
          = (numberWhere script.targets.contains 0 script.boundaries).map (List.map labelNumber)
        ∧ unlabelled result = script.placed.map script.symbolicAt := by
  have hsites : ∀ sites, List.Forall₂ (fun place site => jumpSite script.boundaries place = .ok site)
      script.placed sites
        ↔ (∀ place ∈ script.placed, LeadsToBoundary script.boundaries place)
          ∧ sites = script.placed.map siteAt := fun sites => by
    simp only [jumpSite_eq_ok]
    rw [List.forall₂_and_left]
    refine and_congr_right (fun _ => ?_)
    rw [eq_comm, ← List.forall₂_eq_eq_eq, List.forall₂_map_left_iff]
    simp only [eq_comm]
  -- the one list that is woven from these runs and instructions
  have hweave : ((script.placed.map siteAt).flatMap fun site =>
        labelAt script.marked site.start ++ [JumpSite.symbolic script.marked site])
        ++ labelAt script.marked script.byteLength
      = weave ((numberWhere script.targets.contains 0 script.boundaries).map (List.map labelNumber))
        (script.placed.map script.symbolicAt) := by
    have hstarts : (script.placed.map siteAt).map JumpSite.start ++ [script.byteLength]
        = script.boundaries := by
      rw [boundaries_eq_of_unlabelled hlabels, List.map_map]
      rfl
    rw [flatMap_labelAt, hstarts, ← map_idxOf?_filter (nodup_boundaries script), List.map_map,
      List.map_map]
    rfl
  have hunlabelled : ∀ instruction ∈ script.placed.map script.symbolicAt,
      instruction.isLabel = false := fun instruction hmem => by
    obtain ⟨place, hplace, rfl⟩ := List.mem_map.mp hmem
    exact (isLabel_symbolicAt script place).trans (hlabels _ (mem_of_mem_placed hplace))
  have hlen : ((numberWhere script.targets.contains 0 script.boundaries).map
        (List.map labelNumber)).length
      = (script.placed.map script.symbolicAt).length + 1 := by
    rw [List.length_map, length_numberWhere, boundaries_eq_of_unlabelled hlabels,
      List.length_append, List.length_map, List.length_map]
    rfl
  have hparts := labelRuns_weave hunlabelled hlen
  unfold insertLabels
  simp only [Except.bind_eq_ok, List.mapM_eq_ok, hsites, Except.pure_eq_ok, Except.ok.injEq]
  constructor
  · rintro ⟨sites, ⟨hlead, rfl⟩, rfl⟩
    exact ⟨hlead, by rw [← hparts.1, ← hweave]; rfl, by rw [← hparts.2, ← hweave]; rfl⟩
  · rintro ⟨hlead, hruns, hinstructions⟩
    refine ⟨_, ⟨hlead, rfl⟩, hweave.trans ?_⟩
    exact eq_of_labelRuns_eq (hparts.1.trans hruns.symm) (hparts.2.trans hinstructions.symm)

/-- **The labels that are inserted** are numbered in the order in which they
stand, one for each boundary that gets one. -/
theorem flatten_labelRuns_of_insertLabels {script symbolic : Script}
    (hlabels : ∀ instruction ∈ script, instruction.isLabel = false)
    (h : script.insertLabels = .ok symbolic) :
    (labelRuns symbolic).flatten = (List.range script.marked.length).map labelNumber := by
  obtain ⟨-, hruns, -⟩ := (insertLabels_eq_ok hlabels).mp h
  rw [hruns, ← List.map_flatten, flatten_numberWhere, List.countP_eq_length_filter,
    ← List.range_eq_range']
  rfl

theorem label_mem_of_insertLabels {script symbolic : Script}
    (hlabels : ∀ instruction ∈ script, instruction.isLabel = false)
    (h : script.insertLabels = .ok symbolic) {number : Nat} :
    .label number ∈ symbolic ↔ number < script.marked.length ∧ number < 2 ^ 32 := by
  rw [label_mem_iff, flatten_labelRuns_of_insertLabels hlabels h, mem_map_labelNumber]

theorem length_targets_le (script : Script) : script.targets.length ≤ script.length := by
  conv_rhs => rw [← map_instruction_placed script, List.length_map]
  exact (List.length_filterMap_le ..).trans_eq (List.length_map _)

/-- There are no more labels than jumps. -/
theorem length_marked_le (script : Script) : script.marked.length ≤ script.targets.length := by
  refine (List.subperm_of_subset ((nodup_boundaries script).filter _) (fun target hmem => ?_)).length_le
  exact List.contains_iff_mem.mp (List.mem_filter.mp hmem).2

/-! ## Labels can be undone -/

/-- A jump at its place in a script, with the boundary to which it leads. -/
theorem symbolicAt_of_jump {script : Script} {place : PlacedInstruction} {index target : Nat}
    {value : Int} (hvalue : place.instruction.jumpValue? = some (index, value))
    (htarget : place.instruction.target? place.start = some (target : Int)) :
    script.symbolicAt place
      = place.instruction.setValue index (labelNumber (script.marked.idxOf target)) := by
  unfold symbolicAt JumpSite.symbolic siteAt
  dsimp only
  rw [hvalue, htarget]
  rfl

theorem symbolicAt_of_not_jump {script : Script} {place : PlacedInstruction}
    (hvalue : place.instruction.jumpValue? = none) :
    script.symbolicAt place = place.instruction := by
  unfold symbolicAt JumpSite.symbolic siteAt
  dsimp only
  rw [hvalue]

theorem mem_targets {script : Script} {target : Nat} :
    target ∈ script.targets
      ↔ ∃ place ∈ script.placed,
        (place.instruction.target? place.start).map Int.toNat = some target := by
  unfold targets
  rw [List.mem_filterMap]
  constructor
  · rintro ⟨site, hmem, hsite⟩
    obtain ⟨place, hplace, rfl⟩ := List.mem_map.mp hmem
    exact ⟨place, hplace, hsite⟩
  · rintro ⟨place, hplace, hsite⟩
    exact ⟨siteAt place, List.mem_map_of_mem hplace, hsite⟩

/-- The boundary to which a jump leads gets a label. -/
theorem mem_marked {script : Script} {place : PlacedInstruction} {target : Nat}
    (hplace : place ∈ script.placed) (hboundary : target ∈ script.boundaries)
    (htarget : place.instruction.target? place.start = some (target : Int)) :
    target ∈ script.marked := by
  refine List.mem_filter.mpr ⟨hboundary, List.contains_iff_mem.mpr (mem_targets.mpr ?_)⟩
  exact ⟨place, hplace, by rw [htarget]; rfl⟩

/-- **What inserting makes of an instruction** that leads to a boundary, if
anywhere: a jump gets the number of its boundary among the marked ones. -/
theorem symbolicAt_cases {script : Script} {place : PlacedInstruction}
    (hplace : place ∈ script.placed) (hlead : LeadsToBoundary script.boundaries place) :
    (place.instruction.jumpValue? = none ∧ script.symbolicAt place = place.instruction)
      ∨ ∃ index value, ∃ target : Nat, place.instruction.jumpValue? = some (index, value)
        ∧ place.instruction.target? place.start = some (target : Int)
        ∧ target ∈ script.marked
        ∧ script.symbolicAt place
          = place.instruction.setValue index (labelNumber (script.marked.idxOf target)) := by
  cases hvalue : place.instruction.jumpValue? with
  | none => exact .inl ⟨rfl, symbolicAt_of_not_jump hvalue⟩
  | some jump =>
    obtain ⟨index, value⟩ := jump
    obtain ⟨t, htarget⟩ : ∃ t, place.instruction.target? place.start = some t := by
      rw [← Option.isSome_iff_exists, Instruction.target?_isSome, hvalue]
      rfl
    obtain ⟨target, hboundary, rfl⟩ := hlead t htarget
    exact .inr ⟨index, value, target, rfl, htarget, mem_marked hplace hboundary htarget,
      symbolicAt_of_jump hvalue htarget⟩

/-- Instructions of the same lengths start at the same places. -/
theorem startsFrom_congr {a b : Script} (h : a.map Instruction.length = b.map Instruction.length)
    (start : Nat) : startsFrom start a = startsFrom start b := by
  have hmap : ∀ script : Script,
      startsFrom start script = (script.map Instruction.length).scanl (· + ·) start := fun script => by
    rw [List.scanl_map]
    rfl
  rw [hmap, hmap, h]

/-- The instructions of a script and its boundaries, put side by side, are
its instructions and their starts. -/
theorem zip_boundaries {script : Script} {f : PlacedInstruction → Instruction}
    (hlabels : ∀ instruction ∈ script, instruction.isLabel = false) :
    (script.placed.map f).zip script.boundaries
      = script.placed.map fun place => (f place, place.start) := by
  have hlen : (script.placed.map f).length = (script.placed.map PlacedInstruction.start).length := by
    rw [List.length_map, List.length_map]
  have hzip : (script.placed.map f ++ []).zip
        (script.placed.map PlacedInstruction.start ++ [script.byteLength])
      = (script.placed.map f).zip (script.placed.map PlacedInstruction.start) ++ [] :=
    List.zip_append hlen
  rw [List.append_nil, List.append_nil] at hzip
  rw [boundaries_eq_of_unlabelled hlabels, hzip, List.zip_map']

/-- Whether the distance of a jump fits the operand that holds it. -/
def JumpFits (instruction : Instruction) : Prop :=
  ∀ index value, instruction.jumpValue? = some (index, value) →
    0 ≤ value ∧ value ≤ (instruction.operands[index]?.map fun operand => operand.format.max).getD 0

/-- Labels take up no bytes, so inserting them moves no boundary. -/
theorem boundaries_of_insertLabels {script symbolic : Script}
    (hlabels : ∀ instruction ∈ script, instruction.isLabel = false)
    (h : script.insertLabels = .ok symbolic) : symbolic.boundaries = script.boundaries := by
  obtain ⟨-, -, hinstructions⟩ := (insertLabels_eq_ok hlabels).mp h
  have hlengths : (unlabelled symbolic).map Instruction.length
      = (unlabelled script).map Instruction.length := by
    rw [hinstructions, unlabelled_eq_self hlabels, List.map_map]
    conv_rhs => rw [← map_instruction_placed script, List.map_map]
    exact List.map_congr_left (fun place _ => length_symbolicAt script place)
  exact startsFrom_congr hlengths 0

/-- **No label is inserted twice** exactly if there are at most `2 ^ 32`. -/
theorem nodup_labelRuns_of_insertLabels {script symbolic : Script}
    (hlabels : ∀ instruction ∈ script, instruction.isLabel = false)
    (h : script.insertLabels = .ok symbolic) :
    (labelRuns symbolic).flatten.Nodup ↔ script.marked.length ≤ 2 ^ 32 := by
  rw [flatten_labelRuns_of_insertLabels hlabels h, nodup_map_labelNumber]

/-- **The run at a boundary** is the label of the boundary, if it gets one. -/
theorem labelRuns_of_insertLabels {script symbolic : Script}
    (hlabels : ∀ instruction ∈ script, instruction.isLabel = false)
    (h : script.insertLabels = .ok symbolic) :
    labelRuns symbolic
      = script.boundaries.map fun b => (script.marked.idxOf? b).toList.map labelNumber := by
  obtain ⟨-, hruns, -⟩ := (insertLabels_eq_ok hlabels).mp h
  rw [hruns, marked, ← map_idxOf?_filter (nodup_boundaries script), List.map_map]
  rfl

/-- **The label at a marked boundary** has the number of that boundary. -/
theorem labelPlace?_of_insertLabels {script symbolic : Script}
    (hlabels : ∀ instruction ∈ script, instruction.isLabel = false)
    (h : script.insertLabels = .ok symbolic) (hcount : script.marked.length ≤ 2 ^ 32)
    {target : Nat} (hmarked : target ∈ script.marked) :
    labelPlace? (labelPlaces symbolic.placed) (labelNumber (script.marked.idxOf target))
      = some target := by
  have hmarks : symbolic.marks = script.boundaries.map fun b =>
      ((script.marked.idxOf? b).toList.map labelNumber, b) := by
    have hzip := List.zip_map' (f := fun b => (script.marked.idxOf? b).toList.map labelNumber)
      (g := id) (l := script.boundaries)
    rw [List.map_id] at hzip
    unfold marks
    rw [labelRuns_of_insertLabels hlabels h, boundaries_of_insertLabels hlabels h]
    exact hzip
  have hnumber : script.marked.idxOf? target = some (script.marked.idxOf target) :=
    List.findIdx?_eq_some_iff_findIdx_eq.mpr ⟨List.idxOf_lt_length_of_mem hmarked, rfl⟩
  rw [labelPlace?_eq_some ((nodup_labelRuns_of_insertLabels hlabels h).mpr hcount), hmarks]
  refine ⟨_, List.mem_map_of_mem (List.mem_filter.mp hmarked).1, rfl, _, ?_, rfl⟩
  rw [hnumber]
  exact List.mem_singleton_self _

/-- **Labels can be undone**: resolving the labels that were inserted gives
back the script, as long as the labels are told apart by their numbers and the
distances fit their operands. -/
theorem resolveLabels_of_insertLabels {script symbolic : Script}
    (hlabels : ∀ instruction ∈ script, instruction.isLabel = false)
    (hfits : ∀ instruction ∈ script, JumpFits instruction)
    (h : script.insertLabels = .ok symbolic) (hcount : script.marked.length ≤ 2 ^ 32) :
    symbolic.resolveLabels = .ok script := by
  obtain ⟨hlead, -, hinstructions⟩ := (insertLabels_eq_ok hlabels).mp h
  refine resolveLabels_eq_ok.mpr ⟨(nodup_labelRuns_of_insertLabels hlabels h).mpr hcount, ?_⟩
  rw [hinstructions, boundaries_of_insertLabels hlabels h, zip_boundaries hlabels]
  conv_rhs => rw [← map_instruction_placed script]
  rw [List.forall₂_map_left_iff, List.forall₂_map_right_iff, List.forall₂_same]
  intro place hplace
  rcases symbolicAt_cases hplace (hlead place hplace) with
    ⟨hvalue, hsymbolic⟩ | ⟨index, value, target, hvalue, htarget, hmarked, hsymbolic⟩
  · rw [hsymbolic]
    exact .inl ⟨hvalue, rfl⟩
  · have hdistance := Instruction.distanceTo_of_target? hvalue htarget
    have hfit := hfits _ (mem_of_mem_placed hplace) index value hvalue
    rw [hsymbolic]
    refine .inr ⟨index, _, target, Instruction.jumpValue?_setValue hvalue _,
      labelPlace?_of_insertLabels hlabels h hcount hmarked, ?_⟩
    rw [Instruction.distanceTo_setValue, hdistance, Instruction.map_max_setValue,
      Instruction.setValue_setValue, Instruction.setValue_self hvalue]
    exact ⟨hfit.1, hfit.2, rfl⟩

theorem exists_of_redefinition? {seen : List Nat} {places : List PlacedInstruction}
    {e : CodecError} (h : redefinition? seen places = some e) :
    ∃ index number, e = .labelRedefined index number := by
  induction places generalizing seen with
  | nil => exact nomatch h
  | cons place rest ih =>
    unfold redefinition? at h
    split at h
    · split_ifs at h with hseen
      · exact ⟨_, _, (Option.some.inj h).symm⟩
      · exact ih h
    · exact ih h

/-- **Labels whose numbers repeat** cannot be resolved. -/
theorem redefined_of_insertLabels {script symbolic : Script}
    (hlabels : ∀ instruction ∈ script, instruction.isLabel = false)
    (h : script.insertLabels = .ok symbolic) (hcount : 2 ^ 32 < script.marked.length) :
    ∃ index number, symbolic.resolveLabels = .error (.labelRedefined index number) := by
  have hrepeats : ¬(labelRuns symbolic).flatten.Nodup := fun hnodup =>
    Nat.not_le_of_lt hcount ((nodup_labelRuns_of_insertLabels hlabels h).mp hnodup)
  unfold resolveLabels
  cases hdefined : redefinition? [] symbolic.placed with
  | none =>
    refine absurd ?_ hrepeats
    rw [← map_fst_labelPlaces_placed]
    exact (redefinition?_eq_none.mp hdefined).1
  | some e =>
    obtain ⟨index, number, rfl⟩ := exists_of_redefinition? hdefined
    exact ⟨index, number, rfl⟩

end Script

end FieldMap
