import FieldMap.Proofs.SectionTables
import Mathlib.Data.Finset.Sort

/-!
# The scripts of a section side by side

A section says where its scripts start and not where they end. The starts come in any order
and may repeat each other; with the start of the texts they are the boundaries of the
section, and a script ends at the next boundary behind its start (`scriptEnd_cases`).

This one fact is enough. No boundary lies inside a script, so two scripts that start at
different places do not overlap, and two that start at one place are the same
(`IsScript.apart`). And if no script starts behind the texts, then each start but the last
is followed by another one, at which its script ends, and the last is followed by the texts:
the scripts fill the section from the first start to the texts (`flatMap_slices`).
-/

namespace FieldMap.ScriptSection

variable {data : Bytes} {s : ScriptSection} {entity index start stop : Nat} {bytecode : Bytes}

/-! ## What a section that was parsed holds -/

/-- **An entity has 32 scripts**, and where the texts start lies in the section. -/
theorem of_parse (h : parse data = .ok s) :
    s.data = data ∧ s.header.textOffset ≤ data.size
      ∧ ∀ e ∈ s.entities, e.positions.length = scriptsPerEntity := by
  obtain ⟨⟨-, htexts⟩, rfl⟩ := parse_eq_ok.mp h
  refine ⟨rfl, htexts, fun e hmem => ?_⟩
  obtain ⟨number, -, rfl⟩ := List.mem_map.mp hmem
  exact (List.length_map _).trans List.length_range

theorem scriptStart?_eq_some :
    s.scriptStart? entity index = some start
      ↔ ∃ e, s.entities[entity]? = some e ∧ e.positions[index]? = some start :=
  Option.bind_eq_some_iff

/-- **Every slot has a start.** -/
theorem exists_scriptStart?_eq_some (h : parse data = .ok s) (hentity : entity < s.entities.length)
    (hindex : index < scriptsPerEntity) : ∃ start, s.scriptStart? entity index = some start := by
  have hlength := (of_parse h).2.2 _ (List.getElem_mem hentity)
  exact ⟨_, scriptStart?_eq_some.mpr ⟨_, List.getElem?_eq_getElem hentity,
    List.getElem?_eq_getElem (hlength.symm ▸ hindex)⟩⟩

theorem mem_flatMap_positions :
    start ∈ s.entities.flatMap Entity.positions
      ↔ ∃ entity index, s.scriptStart? entity index = some start := by
  rw [List.mem_flatMap]
  constructor
  · rintro ⟨e, he, hstart⟩
    obtain ⟨entity, hentity⟩ := List.mem_iff_getElem?.mp he
    obtain ⟨index, hindex⟩ := List.mem_iff_getElem?.mp hstart
    exact ⟨entity, index, scriptStart?_eq_some.mpr ⟨e, hentity, hindex⟩⟩
  · rintro ⟨entity, index, hstart⟩
    obtain ⟨e, hentity, hindex⟩ := scriptStart?_eq_some.mp hstart
    exact ⟨e, List.mem_of_getElem? hentity, List.mem_of_getElem? hindex⟩

/-- **The boundaries** are the starts of scripts and the start of the texts. -/
theorem mem_boundaries :
    stop ∈ s.boundaries
      ↔ (∃ entity index, s.scriptStart? entity index = some stop) ∨ stop = s.header.textOffset := by
  unfold boundaries
  rw [List.mem_append, mem_flatMap_positions, List.mem_singleton]

/-! ## Where a script ends -/

/-- **A script ends at the next boundary** behind its start, and if there is none, it is
empty. -/
theorem scriptEnd_cases (s : ScriptSection) (start : Nat) :
    (s.scriptEnd start ∈ s.boundaries ∧ start < s.scriptEnd start
        ∧ ∀ b ∈ s.boundaries, start < b → s.scriptEnd start ≤ b)
      ∨ (s.scriptEnd start = start ∧ ∀ b ∈ s.boundaries, b ≤ start) := by
  unfold scriptEnd
  cases hmin : (s.boundaries.filter (start < ·)).min? with
  | none =>
    have hnone := List.filter_eq_nil_iff.mp (List.min?_eq_none_iff.mp hmin)
    exact .inr ⟨rfl, fun b hb => Nat.not_lt.mp fun hlt => hnone b hb (decide_eq_true hlt)⟩
  | some stop =>
    obtain ⟨hmem, hleast⟩ := List.min?_eq_some_iff.mp hmin
    obtain ⟨hboundary, hlt⟩ := List.mem_filter.mp hmem
    exact .inl ⟨hboundary, of_decide_eq_true hlt, fun b hb hb' =>
      hleast b (List.mem_filter.mpr ⟨hb, decide_eq_true hb'⟩)⟩

theorem le_scriptEnd (s : ScriptSection) (start : Nat) : start ≤ s.scriptEnd start := by
  rcases s.scriptEnd_cases start with ⟨-, hlt, -⟩ | ⟨heq, -⟩
  · exact hlt.le
  · exact heq.ge

/-- No boundary lies inside a script. -/
theorem scriptEnd_le {b : Nat} (hb : b ∈ s.boundaries) (hlt : start < b) :
    s.scriptEnd start ≤ b := by
  rcases s.scriptEnd_cases start with ⟨-, -, hnext⟩ | ⟨-, hlast⟩
  · exact hnext b hb hlt
  · exact absurd hlt (Nat.not_lt.mpr (hlast b hb))

/-- **A boundary is the end of a script** if no other one lies between. -/
theorem scriptEnd_eq (hstop : stop ∈ s.boundaries) (hlt : start < stop)
    (hnext : ∀ b ∈ s.boundaries, start < b → stop ≤ b) : s.scriptEnd start = stop := by
  refine Nat.le_antisymm (scriptEnd_le hstop hlt) ?_
  rcases s.scriptEnd_cases start with ⟨hmem, hbehind, -⟩ | ⟨-, hlast⟩
  · exact hnext _ hmem hbehind
  · exact absurd hlt (Nat.not_lt.mpr (hlast stop hstop))

/-- Behind the last boundary there is nothing. -/
theorem scriptEnd_eq_self (hlast : ∀ b ∈ s.boundaries, b ≤ start) : s.scriptEnd start = start := by
  rcases s.scriptEnd_cases start with ⟨hmem, hlt, -⟩ | ⟨heq, -⟩
  · exact absurd hlt (Nat.not_lt.mpr (hlast _ hmem))
  · exact heq

/-- **To look for the end of a script** is to go through the boundaries in ascending order,
without their repetitions, to the first one behind its start. -/
theorem scriptEnd_eq_find? (s : ScriptSection) (start : Nat) :
    s.scriptEnd start = (s.boundaries.toFinset.sort.find? (start < ·)).getD start := by
  have hmem : ∀ b, b ∈ s.boundaries.toFinset.sort ↔ b ∈ s.boundaries := fun b => by
    rw [Finset.mem_sort, List.mem_toFinset]
  cases hfind : s.boundaries.toFinset.sort.find? (start < ·) with
  | none =>
    have hnone := List.find?_eq_none.mp hfind
    exact scriptEnd_eq_self fun b hb => Nat.not_lt.mp fun hlt =>
      hnone b ((hmem b).mpr hb) (decide_eq_true hlt)
  | some stop =>
    obtain ⟨hlt, front, back, hsplit, hfront⟩ := List.find?_eq_some_iff_append.mp hfind
    have hsorted := hsplit ▸ s.boundaries.toFinset.sortedLT_sort.pairwise
    obtain ⟨hback, -⟩ := List.pairwise_cons.mp (List.pairwise_append.mp hsorted).2.1
    refine scriptEnd_eq ((hmem stop).mp (List.mem_of_find?_eq_some hfind))
      (of_decide_eq_true hlt) fun b hb hb' => ?_
    have hin := (hmem b).mpr hb
    rw [hsplit, List.mem_append, List.mem_cons] at hin
    rcases hin with hb'' | rfl | hb''
    · exact absurd hb' (of_decide_eq_false (Bool.not_eq_true' _ ▸ hfront b hb''))
    · exact le_rfl
    · exact (hback b hb'').le

/-! ## Two scripts -/

/-- **A script of a section**: some slot has this start, and this bytecode is read for it. -/
def IsScript (s : ScriptSection) (start : Nat) (bytecode : Bytes) : Prop :=
  ∃ entity index, s.scriptStart? entity index = some start ∧ s.script entity index = .ok bytecode

theorem script_eq_ok (h : s.scriptStart? entity index = some start) :
    s.script entity index = .ok bytecode
      ↔ s.scriptEnd start ≤ s.data.size ∧ s.data.extract start (s.scriptEnd start) = bytecode := by
  unfold script
  rw [h]
  dsimp only
  rw [Bytes.slice_eq_ok, Nat.add_sub_cancel' (s.le_scriptEnd start)]

namespace IsScript

/-- A script starts at a boundary. -/
theorem mem_boundaries (h : s.IsScript start bytecode) : start ∈ s.boundaries := by
  obtain ⟨entity, index, hstart, -⟩ := h
  exact ScriptSection.mem_boundaries.mpr (.inl ⟨entity, index, hstart⟩)

/-- **The bytes of a script** reach from its start to its end. -/
theorem eq_extract (h : s.IsScript start bytecode) :
    start + bytecode.size = s.scriptEnd start ∧ start + bytecode.size ≤ s.data.size
      ∧ s.data.extract start (start + bytecode.size) = bytecode := by
  obtain ⟨entity, index, hstart, hread⟩ := h
  obtain ⟨hfits, rfl⟩ := (script_eq_ok hstart).mp hread
  have hend : start + (s.data.extract start (s.scriptEnd start)).size = s.scriptEnd start := by
    rw [Array.size_extract, Nat.min_eq_left hfits, Nat.add_sub_cancel' (s.le_scriptEnd start)]
  exact ⟨hend, hend.trans_le hfits, by rw [hend]⟩

/-- **A boundary behind the start of a script** lies behind all of it. -/
theorem le_of_lt (h : s.IsScript start bytecode) {b : Nat} (hb : b ∈ s.boundaries)
    (hlt : start < b) : start + bytecode.size ≤ b := h.eq_extract.1.trans_le (scriptEnd_le hb hlt)

/-- **Two scripts are one, or they lie side by side.** -/
theorem apart {start' : Nat} {bytecode' : Bytes} (h : s.IsScript start bytecode)
    (h' : s.IsScript start' bytecode') :
    (start = start' → bytecode = bytecode')
      ∧ (start ≠ start' → start + bytecode.size ≤ start' ∨ start' + bytecode'.size ≤ start) := by
  refine ⟨fun heq => ?_, fun hne => ?_⟩
  · subst heq
    have hsize := h.eq_extract.1.trans h'.eq_extract.1.symm
    rw [← h.eq_extract.2.2, ← h'.eq_extract.2.2, hsize]
  · rcases Nat.lt_or_gt_of_ne hne with hlt | hlt
    · exact .inl (h.le_of_lt h'.mem_boundaries hlt)
    · exact .inr (h'.le_of_lt h.mem_boundaries hlt)

end IsScript

theorem exists_isScript (h : s.script entity index = .ok bytecode) :
    ∃ start, s.IsScript start bytecode := by
  cases hstart : s.scriptStart? entity index with
  | some start => exact ⟨start, entity, index, hstart, h⟩
  | none =>
    unfold script at h
    rw [hstart] at h
    exact nomatch h

/-! ## How long a script can be -/

/-- Boundaries are read from words of 16 bits. -/
theorem lt_of_mem_boundaries (h : parse data = .ok s) (hstop : stop ∈ s.boundaries) :
    stop < 2 ^ 16 := by
  obtain ⟨-, rfl⟩ := parse_eq_ok.mp h
  rcases List.mem_append.mp hstop with hstart | htexts
  · obtain ⟨e, he, hstart⟩ := List.mem_flatMap.mp hstart
    obtain ⟨number, -, rfl⟩ := List.mem_map.mp he
    obtain ⟨slot, -, rfl⟩ := List.mem_map.mp hstart
    exact UInt16.toNat_lt _
  · rw [List.mem_singleton.mp htexts]
    exact UInt16.toNat_lt _

/-- **No script is as long as `2 ^ 16` bytes**, since it ends at a boundary. -/
theorem size_lt_of_mem_scripts (h : parse data = .ok s) {slot : ScriptSlot}
    (hslot : slot ∈ s.scripts) (hbytes : slot.bytecode = .ok bytecode) :
    bytecode.size < 2 ^ 16 := by
  obtain ⟨⟨e, entity⟩, -, hslot⟩ := List.mem_flatMap.mp hslot
  obtain ⟨index, -, rfl⟩ := List.mem_map.mp hslot
  obtain ⟨start, hscript⟩ := exists_isScript hbytes
  have hend : s.scriptEnd start < 2 ^ 16 := by
    rcases s.scriptEnd_cases start with ⟨hmem, -, -⟩ | ⟨heq, -⟩
    · exact lt_of_mem_boundaries h hmem
    · rw [heq]
      exact lt_of_mem_boundaries h hscript.mem_boundaries
  exact (Nat.le_add_left ..).trans_lt (hscript.eq_extract.1 ▸ hend)

/-! ## All scripts -/

/-- **The different starts of the scripts** of a section, in ascending order. -/
def starts (s : ScriptSection) : List Nat := (s.entities.flatMap Entity.positions).toFinset.sort

theorem mem_starts :
    start ∈ s.starts ↔ ∃ entity index, s.scriptStart? entity index = some start := by
  unfold starts
  rw [Finset.mem_sort, List.mem_toFinset, mem_flatMap_positions]

section NoneBehindTexts

variable (hfront : ∀ b ∈ s.boundaries, b ≤ s.header.textOffset)

include hfront

/-- A script ends at the texts at the latest. -/
theorem scriptEnd_le_textOffset (hstart : start ∈ s.boundaries) :
    s.scriptEnd start ≤ s.header.textOffset := by
  rcases s.scriptEnd_cases start with ⟨hmem, -, -⟩ | ⟨heq, -⟩
  · exact hfront _ hmem
  · exact heq.trans_le (hfront start hstart)

/-- **Slices fill the place up to the texts.** The induction is on the starts that follow
the first one: whatever boundary lies behind a start is one of those that follow, or the
start of the texts. -/
theorem flatMap_slices {rest : List Nat} (hascending : (start :: rest).Pairwise (· < ·))
    (hmem : ∀ a ∈ start :: rest, a ∈ s.boundaries)
    (hnext : ∀ b ∈ s.boundaries, start < b → b ∈ rest ∨ b = s.header.textOffset) :
    (start :: rest).flatMap (fun a => (s.data.extract a (s.scriptEnd a)).toList)
      = (s.data.extract start s.header.textOffset).toList := by
  have htexts : s.header.textOffset ∈ s.boundaries := mem_boundaries.mpr (.inr rfl)
  induction rest generalizing start with
  | nil =>
    have hlast : ∀ b ∈ s.boundaries, start < b → b = s.header.textOffset := fun b hb hlt =>
      (hnext b hb hlt).resolve_left List.not_mem_nil
    have hend : s.scriptEnd start = s.header.textOffset := by
      rcases (hfront start (hmem start List.mem_cons_self)).lt_or_eq with hlt | heq
      · exact scriptEnd_eq htexts hlt fun b hb hb' => (hlast b hb hb').ge
      · exact (scriptEnd_eq_self fun b hb => (hfront b hb).trans heq.ge).trans heq
    rw [List.flatMap_singleton, hend]
  | cons next rest ih =>
    obtain ⟨hfirst, hrest⟩ := List.pairwise_cons.mp hascending
    obtain ⟨-, hfollow⟩ := List.forall_mem_cons.mp hmem
    have hboundary := hfollow next List.mem_cons_self
    have hlt : start < next := hfirst next List.mem_cons_self
    have hend : s.scriptEnd start = next := scriptEnd_eq hboundary hlt fun b hb hb' => by
      rcases hnext b hb hb' with hin | rfl
      · rcases List.mem_cons.mp hin with rfl | hbehind
        · exact le_rfl
        · exact (List.rel_of_pairwise_cons hrest hbehind).le
      · exact hfront next hboundary
    have hslices := ih hrest hfollow fun b hb hb' =>
      (hnext b hb (hlt.trans hb')).imp_left fun hin => (List.mem_cons.mp hin).resolve_left hb'.ne'
    rw [List.flatMap_cons, hslices, hend, ← Array.toList_append, Array.extract_append_extract,
      Nat.min_eq_left hlt.le, Nat.max_eq_right (hfront next hboundary)]

/-- **The slices at all starts** are the section from the first start to the texts. -/
theorem flatMap_starts {least : Nat} (hleast : s.starts.head? = some least) :
    s.starts.flatMap (fun start => (s.data.extract start (s.scriptEnd start)).toList)
      = (s.data.extract least s.header.textOffset).toList := by
  have hascending : s.starts.Pairwise (· < ·) := (Finset.sortedLT_sort _).pairwise
  have hmem : ∀ a, a ∈ s.starts ↔ ∃ entity index, s.scriptStart? entity index = some a :=
    fun _ => mem_starts
  obtain ⟨rest, hrest⟩ := List.head?_eq_some_iff.mp hleast
  rw [hrest] at hascending hmem ⊢
  refine flatMap_slices hfront hascending (fun a ha => ?_) fun b hb hlt => ?_
  · exact mem_boundaries.mpr (.inl ((hmem a).mp ha))
  · exact (mem_boundaries.mp hb).imp_left fun hstart =>
      (List.mem_cons.mp ((hmem b).mpr hstart)).resolve_left hlt.ne'

end NoneBehindTexts

/-- **The scripts of a section lie side by side.** The bytecode of a script stands at its
start, and no script starts inside of it, nor do the texts; slots with one start have the
same bytecode, and slots with different starts have bytecode that does not overlap. If no
script starts behind the texts, then every slot has bytecode, and the bytecode at the
different starts, in ascending order, is the section from the first start to the texts. -/
theorem scripts_partition (h : parse data = .ok s) :
    (∀ start bytecode, s.IsScript start bytecode →
        start + bytecode.size ≤ data.size ∧ data.extract start (start + bytecode.size) = bytecode
        ∧ (∀ b ∈ s.boundaries, ¬(start < b ∧ b < start + bytecode.size))
        ∧ ∀ start' bytecode', s.IsScript start' bytecode' →
          (start = start' → bytecode = bytecode')
          ∧ (start ≠ start' → start + bytecode.size ≤ start' ∨ start' + bytecode'.size ≤ start))
      ∧ ((∀ entity index start, s.scriptStart? entity index = some start →
            start ≤ s.header.textOffset) →
        (∀ entity < s.entities.length, ∀ index < 32,
            ∃ bytecode, s.script entity index = .ok bytecode)
          ∧ ∀ least, s.starts.head? = some least →
            ∃ bytecodes, List.Forall₂ s.IsScript s.starts bytecodes
              ∧ bytecodes.flatMap Array.toList
                = (data.extract least s.header.textOffset).toList) := by
  obtain ⟨rfl, htexts, -⟩ := of_parse h
  refine ⟨fun start bytecode hscript => ⟨hscript.eq_extract.2.1, hscript.eq_extract.2.2,
    fun b hb hinside => ?_, fun start' bytecode' => hscript.apart⟩, fun hstarts => ?_⟩
  · exact absurd hinside.2 (Nat.not_lt.mpr (hscript.le_of_lt hb hinside.1))
  have hfront : ∀ b ∈ s.boundaries, b ≤ s.header.textOffset := fun b hb => by
    rcases mem_boundaries.mp hb with ⟨entity, index, hstart⟩ | rfl
    · exact hstarts entity index b hstart
    · exact le_rfl
  have hread : ∀ {entity index start}, s.scriptStart? entity index = some start →
      s.script entity index = .ok (s.data.extract start (s.scriptEnd start)) := fun hstart =>
    (script_eq_ok hstart).mpr ⟨(scriptEnd_le_textOffset hfront
      (mem_boundaries.mpr (.inl ⟨_, _, hstart⟩))).trans htexts, rfl⟩
  refine ⟨fun entity hentity index hindex => ?_, fun least hleast => ?_⟩
  · obtain ⟨start, hstart⟩ := exists_scriptStart?_eq_some h hentity hindex
    exact ⟨_, hread hstart⟩
  · refine ⟨s.starts.map fun start => s.data.extract start (s.scriptEnd start),
      List.forall₂_map_right_iff.mpr (List.forall₂_same.mpr fun start hmem => ?_), ?_⟩
    · obtain ⟨entity, index, hstart⟩ := mem_starts.mp hmem
      exact ⟨entity, index, hstart, hread hstart⟩
    · rw [List.flatMap_map]
      exact flatMap_starts hfront hleast

/-- A section whose first script stands behind its second one, and whose other slots repeat
the start of the first. -/
def returningStart : Bytes :=
  List.toArray <| [2, 5, 1, 0, 109, 0, 0, 0] ++ List.replicate 24 0 ++ [99, 108, 0, 0, 0, 0, 0, 0]
    ++ [107, 0] ++ [104, 0] ++ (List.replicate 30 [107, 0]).flatten
    ++ [0x5F, 0x5F, 0x00] ++ [0x5F, 0x00] ++ [0, 0]

/-- What is read from it. -/
def returningSection : ScriptSection where
  data := returningStart
  header := ⟨1282, 1, 0, 109, 0, 0, "", ""⟩
  entities := [⟨"cl", 107 :: 104 :: List.replicate 30 107⟩]
  soundOffsets := []

theorem parse_returningStart : parse returningStart = .ok returningSection := by decide +kernel

/-- The two scripts are found in ascending order, up to the texts. -/
theorem scripts_partition_returning :
    parse returningStart = .ok returningSection ∧ returningSection.starts = [104, 107]
      ∧ ∃ bytecodes, List.Forall₂ returningSection.IsScript [104, 107] bytecodes
        ∧ bytecodes.flatMap Array.toList = [0x5F, 0x5F, 0x00, 0x5F, 0x00] := by
  have hstarts : returningSection.starts = [104, 107] := by
    have hset : (returningSection.entities.flatMap Entity.positions).toFinset
        = [104, 107].toFinset := by decide
    unfold starts
    rw [hset]
    exact (List.toFinset_sort (· ≤ ·) (by decide)).mpr (by decide)
  have hfront : ∀ entity index start, returningSection.scriptStart? entity index = some start →
      start ≤ returningSection.header.textOffset := fun entity index start hstart => by
    have hmem : start ∈ returningSection.starts := mem_starts.mpr ⟨entity, index, hstart⟩
    have hall : ∀ a ∈ [104, 107], a ≤ returningSection.header.textOffset := by decide
    exact hall start (hstarts ▸ hmem)
  obtain ⟨bytecodes, hscripts, hslices⟩ :=
    ((scripts_partition parse_returningStart).2 hfront).2 104 (hstarts ▸ rfl)
  rw [hstarts] at hscripts
  exact ⟨parse_returningStart, hstarts, bytecodes, hscripts, hslices.trans (by decide +kernel)⟩

end FieldMap.ScriptSection
