import FieldMap.Encounter
import FieldMap.Proofs.LastEdits
import FieldMap.Proofs.Placement

/-!
# The encounter section as it is stored

A table of battles is read field by field, and its fields lie side by side: two bytes,
ten words for the battles and the closing word. Written again, they are the bytes that
they were read from (`EncounterTable.bytes_readAt`). The section is two such tables and
nothing else, so every section that can be read is written back as it was
(`EncounterSection.save_of_parse`).

In the other direction a table is read wherever its bytes stand
(`EncounterTable.readAt_of_holdsAt`), so every section is read back from what it is written
as, whatever was done to it before. Setting a table changes this table only, and the bytes
of the other one stay as they are (`EncounterSection.save_edited`).

A battle is the remainder and the quotient of one division by 1024, which is why each pair
of a number and a probability comes back in their bounds, and every word can be put together
again from its two parts.
-/

namespace FieldMap

-- powers of numbers are those of the core library, whatever else is imported
attribute [local instance (high)] instPowNat

variable {data : Bytes}

namespace Encounter

/-! ## One battle -/

theorem toNat_battle (encounter : Encounter) :
    encounter.battle.toNat = encounter.raw.toNat % 1024 := by
  unfold battle
  rw [UInt16.toNat_and]
  exact Nat.and_two_pow_sub_one_eq_mod _ 10

theorem toNat_probability (encounter : Encounter) :
    encounter.probability.toNat = encounter.raw.toNat / 1024 := by
  have hraw := encounter.raw.toNat_lt
  unfold probability
  rw [UInt16.toNat_toUInt8, UInt16.toNat_shiftRight]
  show encounter.raw.toNat >>> 10 % 2 ^ 8 = _
  rw [Nat.shiftRight_eq_div_pow]
  omega

/-- **The word of a battle**: its number below, its probability above, each cut off at its
bound. -/
theorem toNat_raw_ofParts (number : UInt16) (chance : UInt8) :
    (ofParts number chance).raw.toNat = number.toNat % 1024 + 1024 * (chance.toNat % 64) := by
  have hlow : number.toNat &&& 0x3FF = number.toNat % 1024 := Nat.and_two_pow_sub_one_eq_mod _ 10
  have hhigh : chance.toNat &&& 0x3F = chance.toNat % 64 := Nat.and_two_pow_sub_one_eq_mod _ 6
  have hfits : chance.toNat % 64 * 2 ^ 10 < 2 ^ 16 := by omega
  unfold ofParts
  dsimp only
  rw [UInt16.toNat_or, UInt16.toNat_shiftLeft, UInt8.toNat_toUInt16, UInt8.toNat_and,
    UInt16.toNat_and]
  show number.toNat &&& 0x3FF ||| (chance.toNat &&& 0x3F) <<< 10 % 2 ^ 16 = _
  rw [hlow, hhigh, Nat.shiftLeft_eq, Nat.mod_eq_of_lt hfits, Nat.or_comm, Nat.mul_comm,
    ← Nat.two_pow_add_eq_or_of_lt (by omega), Nat.add_comm]

theorem toNat_battle_ofParts (number : UInt16) (chance : UInt8) :
    (ofParts number chance).battle.toNat = number.toNat % 1024 := by
  rw [toNat_battle, toNat_raw_ofParts]
  omega

theorem toNat_probability_ofParts (number : UInt16) (chance : UInt8) :
    (ofParts number chance).probability.toNat = chance.toNat % 64 := by
  rw [toNat_probability, toNat_raw_ofParts]
  omega

/-- **A battle is put together again** from its number and its probability. -/
theorem ofParts_battle_probability (encounter : Encounter) :
    ofParts encounter.battle encounter.probability = encounter := by
  have hraw := encounter.raw.toNat_lt
  have hnat : (ofParts encounter.battle encounter.probability).raw.toNat
      = encounter.raw.toNat := by
    rw [toNat_raw_ofParts, toNat_battle, toNat_probability]
    omega
  obtain ⟨raw⟩ := encounter
  exact congrArg Encounter.mk (UInt16.toNat_inj.mp hnat)

end Encounter

namespace EncounterTable

/-! ## One table -/

/-- The battles are ten words side by side. -/
theorem battles_readAt (data : Bytes) (offset : Nat) :
    (readAt data offset).battles
      = (List.range 10).map fun i => ⟨data.wordAt (offset + 2 + 2 * i)⟩ := by
  rfl

/-- **A table is written as the bytes that it was read from.** -/
theorem bytes_readAt (data : Bytes) (offset : Nat) :
    (readAt data offset).bytes = (List.range length).map fun i => data.byteAt (offset + i) := by
  have hpad : toLittleEndian 2 (readAt data offset).pad.toNat
      = [data.byteAt (offset + 22), data.byteAt (offset + 23)] := data.toLittleEndian_wordAt _
  unfold bytes
  rw [battles_readAt, List.flatMap_map, hpad]
  simp only [Bytes.toLittleEndian_wordAt]
  rfl

theorem length_battles (table : EncounterTable) : table.battles.length = 10 := by
  unfold battles
  rw [List.length_append, Vector.length_toList, Vector.length_toList]

/-- The words of the battles fill twenty bytes. -/
theorem length_words (table : EncounterTable) :
    (table.battles.flatMap fun encounter => toLittleEndian 2 encounter.raw.toNat).length = 20 := by
  rw [Bytes.length_flatMap_of_forall fun _ _ => length_toLittleEndian .., length_battles]

theorem length_bytes (table : EncounterTable) : table.bytes.length = length := by
  unfold bytes
  rw [List.length_append, List.length_append, length_words, length_toLittleEndian]
  rfl

/-- A table is determined by its battles and the bytes around them. -/
theorem eq_of_battles {table other : EncounterTable} (henabled : table.enabled = other.enabled)
    (hrate : table.rate = other.rate) (hbattles : table.battles = other.battles)
    (hpad : table.pad = other.pad) : table = other := by
  obtain ⟨enabled, rate, standard, special, pad⟩ := table
  obtain ⟨enabled', rate', standard', special', pad'⟩ := other
  obtain ⟨hstandard, hspecial⟩ := List.append_inj hbattles
    (standard.length_toList.trans standard'.length_toList.symm)
  obtain rfl : enabled = enabled' := henabled
  obtain rfl : rate = rate' := hrate
  obtain rfl : pad = pad' := hpad
  obtain rfl : standard = standard' := Vector.toList_inj.mp hstandard
  obtain rfl : special = special' := Vector.toList_inj.mp hspecial
  rfl

/-- **A table is read where its bytes stand.** -/
theorem readAt_of_holdsAt {offset : Nat} {table : EncounterTable}
    (h : data.HoldsAt offset table.bytes) : readAt data offset = table := by
  have hwords := h.left.right
  have hword : ∀ i encounter, table.battles[i]? = some encounter →
      data.wordAt (offset + 2 + 2 * i) = encounter.raw := fun i encounter hi => by
    rw [Nat.mul_comm]
    exact (hwords.entry (fun _ _ => length_toLittleEndian ..) hi).wordAt
  refine eq_of_battles (h.byteAt (i := 0) rfl) (h.byteAt (i := 1) rfl) ?_ ?_
  · rw [battles_readAt]
    refine List.ext_getElem? fun i => ?_
    rw [List.getElem?_map]
    rcases Nat.lt_or_ge i 10 with hi | hi
    · have hbattle := List.getElem?_eq_getElem (table.length_battles.symm ▸ hi)
      rw [List.getElem?_range hi, hbattle, Option.map_some, hword i _ hbattle]
    · rw [List.getElem?_eq_none (by rwa [List.length_range]),
        List.getElem?_eq_none (by rwa [length_battles])]
      rfl
  · have hpad := h.right
    rw [List.length_append, length_words] at hpad
    exact hpad.wordAt

end EncounterTable

/-- Where the bytes of a table stand in a section. -/
def TableId.offset : TableId → Nat
  | .normal => 0
  | .special => EncounterTable.length

namespace EncounterSection

/-! ## The section -/

theorem parse_eq_ok {encounters : EncounterSection} :
    parse data = .ok encounters
      ↔ data.size = length
        ∧ encounters
          = ⟨EncounterTable.readAt data 0, EncounterTable.readAt data EncounterTable.length⟩ := by
  unfold parse
  split_ifs with h
  · rw [Except.ok.injEq, eq_comm]
    exact (and_iff_right h).symm
  · exact iff_of_false (fun heq => nomatch heq) (fun heq => h heq.1)

/-- **A section that can be read is written back as it was.** -/
theorem save_of_parse {encounters : EncounterSection} (h : parse data = .ok encounters) :
    encounters.save = data := by
  obtain ⟨hsize, rfl⟩ := parse_eq_ok.mp h
  apply Array.toList_inj.mp
  unfold save
  dsimp only
  rw [EncounterTable.bytes_readAt, EncounterTable.bytes_readAt, data.toList_eq_map_byteAt, hsize,
    length, Nat.two_mul, List.range_add, List.map_append, List.map_map]
  simp only [Nat.zero_add]
  rfl

theorem size_save (encounters : EncounterSection) : encounters.save.size = length := by
  unfold save
  rw [List.size_toArray, List.length_append, EncounterTable.length_bytes,
    EncounterTable.length_bytes]
  rfl

/-- **A table stands at its offset** in what a section is written as. -/
theorem holdsAt_save (encounters : EncounterSection) (id : TableId) :
    encounters.save.HoldsAt id.offset (encounters.table id).bytes := by
  have hboth : encounters.save.HoldsAt 0 (encounters.normal.bytes ++ encounters.special.bytes) :=
    .toArray _
  cases id with
  | normal => exact hboth.left
  | special =>
    have hspecial := hboth.behind encounters.normal.length_bytes
    rwa [Nat.zero_add] at hspecial

/-- The bytes of a table depend on this table only. -/
theorem extract_save (encounters : EncounterSection) (id : TableId) :
    encounters.save.extract id.offset (id.offset + EncounterTable.length)
      = (encounters.table id).bytes.toArray := by
  have hbytes := (encounters.holdsAt_save id).extract
  rwa [EncounterTable.length_bytes] at hbytes

/-- **A section is read back** from what it is written as. -/
theorem parse_save (encounters : EncounterSection) : parse encounters.save = .ok encounters := by
  have hread : ∀ id : TableId,
      EncounterTable.readAt encounters.save id.offset = encounters.table id := fun id =>
    EncounterTable.readAt_of_holdsAt (encounters.holdsAt_save id)
  refine parse_eq_ok.mpr ⟨encounters.size_save, ?_⟩
  rw [show 0 = TableId.normal.offset from rfl, hread .normal,
    show EncounterTable.length = TableId.special.offset from rfl, hread .special]
  rfl

/-! ## Sections that were edited -/

/-- The section after tables were set, one after the other. -/
def setAll (encounters : EncounterSection) (edits : List (TableId × EncounterTable)) :
    EncounterSection :=
  edits.foldl (fun encounters edit => encounters.setTable edit.1 edit.2) encounters

/-- **A table is what it was set to last**, and what it was before if it was not set. -/
theorem table_setAll (encounters : EncounterSection) (edits : List (TableId × EncounterTable))
    (id : TableId) :
    (encounters.setAll edits).table id = (edits.lastSet? id).getD (encounters.table id) :=
  List.get_foldl_set table_setTable encounters edits id

/-- **Encounter sections survive edits and saving.** A section can be read just if it has 48
bytes, and it is written as the bytes that it was read from. Whatever tables are set in any
section, one after the other, what is written has 48 bytes again and is read as the same
section. Each table in it is the one that was set last, or the one that was there if none was
set; in the latter case its 24 bytes are as they were. The battles of a table keep the
remainder of their number by 1024 and that of their probability by 64, and every battle is
put together again from these two. -/
theorem save_edited :
    (∀ data : Bytes, (∃ encounters, parse data = .ok encounters) ↔ data.size = 48)
      ∧ (∀ (data : Bytes) (encounters : EncounterSection), parse data = .ok encounters →
        encounters.save = data)
      ∧ (∀ (original : EncounterSection) (edits : List (TableId × EncounterTable)),
        (original.setAll edits).save.size = 48
          ∧ parse (original.setAll edits).save = .ok (original.setAll edits)
          ∧ ∀ id : TableId,
            (original.setAll edits).table id = (edits.lastSet? id).getD (original.table id)
              ∧ ((∀ edit ∈ edits, edit.1 ≠ id) →
                (original.setAll edits).save.extract id.offset (id.offset + 24)
                  = original.save.extract id.offset (id.offset + 24)))
      ∧ (∀ (number : UInt16) (chance : UInt8),
        (Encounter.ofParts number chance).battle.toNat = number.toNat % 1024
          ∧ (Encounter.ofParts number chance).probability.toNat = chance.toNat % 64)
      ∧ ∀ encounter : Encounter,
        Encounter.ofParts encounter.battle encounter.probability = encounter := by
  refine ⟨fun data => ?_, fun data encounters => save_of_parse, fun original edits => ?_,
    fun number chance => ?_, Encounter.ofParts_battle_probability⟩
  · exact ⟨fun ⟨_, h⟩ => (parse_eq_ok.mp h).1, fun h => ⟨_, parse_eq_ok.mpr ⟨h, rfl⟩⟩⟩
  · refine ⟨size_save _, parse_save _, fun id => ⟨original.table_setAll edits id, fun hnone => ?_⟩⟩
    have hsame : (original.setAll edits).table id = original.table id := by
      rw [table_setAll, List.lastSet?_eq_none.mpr hnone, Option.getD_none]
    exact ((extract_save _ id).trans (by rw [hsame])).trans (original.extract_save id).symm
  · exact ⟨Encounter.toNat_battle_ofParts number chance,
      Encounter.toNat_probability_ofParts number chance⟩

/-- The bytes from 0 to 47. -/
def ascending : Bytes := Array.ofFn fun i : Fin 48 => UInt8.ofNat i

/-- The special table is cleared in the bytes from 0 to 47, after it was set to the normal
one; the first half of the bytes stays. -/
theorem save_edited_ascending :
    ∃ encounters, parse ascending = .ok encounters ∧ encounters.save = ascending
      ∧ (encounters.setAll [(.special, encounters.normal), (.special, .blank)]).table .special
        = .blank
      ∧ (encounters.setAll [(.special, encounters.normal), (.special, .blank)]).save.extract 0 24
        = ascending.extract 0 24 := by
  obtain ⟨hopens, hsaves, hedits, -⟩ := save_edited
  obtain ⟨encounters, hparse⟩ := (hopens ascending).mpr (by decide)
  have hsame := hsaves ascending encounters hparse
  obtain ⟨-, -, htables⟩ := hedits encounters [(.special, encounters.normal), (.special, .blank)]
  refine ⟨encounters, hparse, hsame, (htables .special).1, ?_⟩
  rw [← hsame]
  exact (htables .normal).2 (List.forall_mem_cons.mpr ⟨nofun, List.forall_mem_singleton.mpr nofun⟩)

end EncounterSection

end FieldMap
