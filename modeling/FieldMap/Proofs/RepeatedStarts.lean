import FieldMap.Proofs.ScriptSlices

/-!
# Which slots are listed

An entity has 32 slots for scripts, and most of them repeat a start. The list of all scripts
goes through the slots in order and compares a start with that of the slot in front, so of
slots in a row that share a start it holds the first (`mem_scripts`). Every start is listed
at the first slot that has it (`IsFirst.lists`), and at no other one as long as the slots
that share a start stand in a row, which is how slots that are not used are stored.

Nothing else keeps a start from being listed again. If it comes back after a different one,
then the slot at which it does is listed as well, although an earlier slot has this start
(`lists_iff_isFirst`).
-/

namespace FieldMap.ScriptSection

variable {data : Bytes} {s : ScriptSection} {entity index start : Nat}

/-- **A slot that is listed** among the scripts of a section. -/
def Lists (s : ScriptSection) (entity index : Nat) : Prop :=
  ∃ slot ∈ s.scripts, slot.entity = entity ∧ slot.index = index

/-- **The first slot of an entity that has its start.** -/
def IsFirst (s : ScriptSection) (entity index : Nat) : Prop :=
  ∃ start, s.scriptStart? entity index = some start
    ∧ ∀ other < index, s.scriptStart? entity other ≠ some start

/-- **The slots of an entity that share a start stand in a row.** -/
def StartsInRows (s : ScriptSection) (entity : Nat) : Prop :=
  ∀ first between last start, first < between → between < last →
    s.scriptStart? entity first = some start → s.scriptStart? entity last = some start →
    s.scriptStart? entity between = some start

/-! ## What is in the list -/

theorem startsNew_iff {positions : List Nat} :
    startsNew positions index = true ↔ index = 0 ∨ positions[index]? ≠ positions[index - 1]? := by
  unfold startsNew
  rw [Bool.or_eq_true, beq_iff_eq, bne_iff_ne]

/-- **A slot is listed** if the slot in front of it has another start, or if there is none. -/
theorem mem_scripts (h : parse data = .ok s) {slot : ScriptSlot} :
    slot ∈ s.scripts
      ↔ slot.bytecode = s.script slot.entity slot.index
        ∧ ∃ start, s.scriptStart? slot.entity slot.index = some start
          ∧ (slot.index = 0 ∨ s.scriptStart? slot.entity (slot.index - 1) ≠ some start) := by
  obtain ⟨entity, index, bytecode⟩ := slot
  dsimp only
  have hstart : ∀ {e}, s.entities[entity]? = some e →
      ∀ i, s.scriptStart? entity i = e.positions[i]? := fun he i => by
    unfold scriptStart?
    rw [he, Option.bind_some]
  unfold scripts
  rw [List.mem_flatMap]
  constructor
  · rintro ⟨⟨e, number⟩, he, hslot⟩
    obtain ⟨i, hi, hmk⟩ := List.mem_map.mp hslot
    obtain ⟨rfl, rfl, rfl⟩ := ScriptSlot.mk.inj hmk
    obtain ⟨hrange, hnew⟩ := List.mem_filter.mp hi
    have hentity := List.mk_mem_zipIdx_iff_getElem?.mp he
    have hlength := (of_parse h).2.2 e (List.mem_of_getElem? hentity)
    have hsome := List.getElem?_eq_getElem (hlength.symm ▸ List.mem_range.mp hrange)
    refine ⟨rfl, _, (hstart hentity i).trans hsome, (startsNew_iff.mp hnew).imp_right fun hne => ?_⟩
    rw [hstart hentity, ← hsome]
    exact hne.symm
  · rintro ⟨rfl, start, hsome, hnew⟩
    obtain ⟨e, hentity, hindex⟩ := scriptStart?_eq_some.mp hsome
    have hlength := (of_parse h).2.2 e (List.mem_of_getElem? hentity)
    have hrange : index < scriptsPerEntity := hlength ▸ (List.getElem?_eq_some_iff.mp hindex).1
    refine ⟨(e, entity), List.mk_mem_zipIdx_iff_getElem?.mpr hentity, List.mem_map.mpr
      ⟨index, List.mem_filter.mpr ⟨List.mem_range.mpr hrange, startsNew_iff.mpr ?_⟩, rfl⟩⟩
    refine hnew.imp_right fun hne => ?_
    rw [hindex, ← hstart hentity]
    exact hne.symm

/-- **Slots are listed in order**: by entity, and for each entity by number. -/
theorem pairwise_scripts (s : ScriptSection) :
    s.scripts.Pairwise fun a b => a.entity < b.entity ∨ a.entity = b.entity ∧ a.index < b.index := by
  have hentities : s.entities.zipIdx.Pairwise fun a b => a.2 < b.2 := by
    refine List.pairwise_map.mp ?_
    rw [List.zipIdx_map_snd]
    exact List.pairwise_lt_range'
  unfold scripts
  refine List.pairwise_flatMap.mpr ⟨fun entry _ => ?_, hentities.imp fun hlt a ha b hb => ?_⟩
  · refine List.pairwise_map.mpr ((List.pairwise_lt_range.filter _).imp fun hlt => ?_)
    exact .inr ⟨rfl, hlt⟩
  · obtain ⟨i, -, rfl⟩ := List.mem_map.mp ha
    obtain ⟨j, -, rfl⟩ := List.mem_map.mp hb
    exact .inl hlt

theorem lists_iff (h : parse data = .ok s) :
    s.Lists entity index
      ↔ ∃ start, s.scriptStart? entity index = some start
        ∧ (index = 0 ∨ s.scriptStart? entity (index - 1) ≠ some start) := by
  constructor
  · rintro ⟨slot, hmem, rfl, rfl⟩
    exact ((mem_scripts h).mp hmem).2
  · intro hstart
    exact ⟨⟨entity, index, s.script entity index⟩, (mem_scripts h).mpr ⟨rfl, hstart⟩, rfl, rfl⟩

/-! ## First slots -/

/-- The first slot with a start is listed. -/
theorem IsFirst.lists (h : parse data = .ok s) (hfirst : s.IsFirst entity index) :
    s.Lists entity index := by
  obtain ⟨start, hstart, hother⟩ := hfirst
  refine (lists_iff h).mpr ⟨start, hstart, ?_⟩
  exact (Nat.eq_zero_or_pos index).imp_right fun hpos => hother _ (Nat.sub_one_lt_of_lt hpos)

/-- **Every start is that of a first slot.** -/
theorem exists_isFirst (hstart : s.scriptStart? entity index = some start) :
    ∃ first ≤ index, s.IsFirst entity first ∧ s.scriptStart? entity first = some start := by
  have hsome : ∃ i, s.scriptStart? entity i = some start := ⟨index, hstart⟩
  exact ⟨Nat.find hsome, Nat.find_min' hsome hstart,
    ⟨start, Nat.find_spec hsome, fun _ hlt => Nat.find_min hsome hlt⟩, Nat.find_spec hsome⟩

/-- **A start that comes back after another one** is listed where it does. -/
theorem exists_lists_of_not_startsInRows (h : parse data = .ok s)
    (hrows : ¬s.StartsInRows entity) : ∃ index, s.Lists entity index ∧ ¬s.IsFirst entity index := by
  unfold StartsInRows at hrows
  push Not at hrows
  obtain ⟨first, between, last, start, hfirst, hlast, hstart, hreturn, hother⟩ := hrows
  -- the first slot behind the different one at which the start is back
  have hback : ∃ i, between < i ∧ s.scriptStart? entity i = some start := ⟨last, hlast, hreturn⟩
  obtain ⟨hbehind, hagain⟩ := Nat.find_spec hback
  have hmin : ∀ i < Nat.find hback, between < i → s.scriptStart? entity i ≠ some start :=
    fun i hi hlt heq => Nat.find_min hback hi ⟨hlt, heq⟩
  generalize Nat.find hback = index at hbehind hagain hmin
  refine ⟨index, (lists_iff h).mpr ⟨start, hagain, .inr ?_⟩, ?_⟩
  · rcases (Nat.le_sub_one_of_lt hbehind).lt_or_eq with hlt | heq
    · exact hmin _ (Nat.sub_one_lt_of_lt hbehind) hlt
    · exact heq ▸ hother
  · rintro ⟨other, hthis, hnone⟩
    obtain rfl : start = other := Option.some.inj (hagain.symm.trans hthis)
    exact hnone first (hfirst.trans hbehind) hstart

/-- **The list holds the first slots and no others** just for those entities whose slots with
one start stand in a row. -/
theorem lists_iff_isFirst (h : parse data = .ok s) :
    (∀ index, s.Lists entity index ↔ s.IsFirst entity index) ↔ s.StartsInRows entity := by
  constructor
  · intro hall
    by_contra hrows
    obtain ⟨index, hlists, hfirst⟩ := exists_lists_of_not_startsInRows h hrows
    exact hfirst ((hall index).mp hlists)
  · refine fun hrows index => ⟨fun hlists => ?_, fun hfirst => hfirst.lists h⟩
    obtain ⟨start, hstart, hnew⟩ := (lists_iff h).mp hlists
    refine ⟨start, hstart, fun other hlt heq => ?_⟩
    have hne := hnew.resolve_left (Nat.ne_zero_of_lt hlt)
    rcases (Nat.le_sub_one_of_lt hlt).lt_or_eq with hbetween | hfront
    · exact hne (hrows other (index - 1) index start hbetween
        (Nat.sub_one_lt_of_lt hlt) heq hstart)
    · exact hne (hfront ▸ heq)

/-- **Of slots in a row that share a start, the first is listed.** The list goes through the
slots of all entities in order. It holds a slot if the slot in front of it in its entity has
another start, or if there is none, with the bytecode of this slot. So every start of an
entity is listed, at the first slot that has it; and the list holds no other slot of an
entity just if the slots that share a start stand in a row. -/
theorem scripts_skip_rows (h : parse data = .ok s) :
    (s.scripts.Pairwise fun a b =>
        a.entity < b.entity ∨ a.entity = b.entity ∧ a.index < b.index)
      ∧ (∀ slot, slot ∈ s.scripts
        ↔ slot.bytecode = s.script slot.entity slot.index
          ∧ ∃ start, s.scriptStart? slot.entity slot.index = some start
            ∧ (slot.index = 0 ∨ s.scriptStart? slot.entity (slot.index - 1) ≠ some start))
      ∧ (∀ entity index start, s.scriptStart? entity index = some start →
        ∃ first ≤ index, s.Lists entity first ∧ s.IsFirst entity first
          ∧ s.scriptStart? entity first = some start)
      ∧ ∀ entity, (∀ index, s.Lists entity index ↔ s.IsFirst entity index)
        ↔ s.StartsInRows entity := by
  refine ⟨s.pairwise_scripts, fun slot => mem_scripts h, fun entity index start hstart => ?_,
    fun entity => lists_iff_isFirst h⟩
  obtain ⟨first, hle, hfirst, hsame⟩ := exists_isFirst hstart
  exact ⟨first, hle, hfirst.lists h, hfirst, hsame⟩

/-- The start of the first script comes back at the third slot, which is listed. -/
theorem scripts_skip_rows_returning :
    parse returningStart = .ok returningSection ∧ ¬returningSection.StartsInRows 0
      ∧ ⟨0, 2, .ok #[0x5F, 0x00]⟩ ∈ returningSection.scripts := by
  refine ⟨parse_returningStart, fun hrows => ?_,
    ((scripts_skip_rows parse_returningStart).2.1 _).mpr
      ⟨by decide +kernel, 107, by decide, .inr (by decide)⟩⟩
  exact absurd (hrows 0 1 2 107 (by decide) (by decide) (by decide) (by decide)) (by decide)

/-- **A slot is listed although an earlier one has its start**: the list does not hold the
first slots only. -/
theorem not_lists_first_only :
    parse returningStart = .ok returningSection
      ∧ returningSection.scripts.map (fun slot => (slot.entity, slot.index))
        = [(0, 0), (0, 1), (0, 2)]
      ∧ returningSection.scriptStart? 0 2 = returningSection.scriptStart? 0 0
      ∧ ¬∀ index, returningSection.Lists 0 index ↔ returningSection.IsFirst 0 index := by
  have hlist : returningSection.scripts.map (fun slot => (slot.entity, slot.index))
      = [(0, 0), (0, 1), (0, 2)] := by decide +kernel
  have hthird : (0, 2) ∈ returningSection.scripts.map (fun slot => (slot.entity, slot.index)) :=
    hlist ▸ by decide
  refine ⟨parse_returningStart, hlist, by decide, fun hall => ?_⟩
  obtain ⟨slot, hmem, heq⟩ := List.mem_map.mp hthird
  obtain ⟨hentity, hindex⟩ := Prod.mk.inj heq
  obtain ⟨start, hstart, hother⟩ := (hall 2).mp ⟨slot, hmem, hentity, hindex⟩
  exact hother 0 (by decide) (hstart ▸ by decide)

end FieldMap.ScriptSection
