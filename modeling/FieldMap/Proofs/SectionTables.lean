import FieldMap.Proofs.ConsecutiveReads
import FieldMap.ScriptSection
import Mathlib.Tactic.SplitIfs

/-!
# Which script sections are complete

The header of a script section declares how many entities and how many sound blocks there
are, and where the texts start. With the two numbers all tables have their places: eight
bytes for the name of each entity, four for the offset of each sound block, and 64 for the
script positions of each entity. The names and the positions of an entity stand apart, with
the sounds between them.

The tables are read one behind the other, and so are the items of a table, each of which
starts where the one in front of it ends. Items of one width therefore stand at multiples of
that width (`readsBetween_readEach`), and nothing that is read is refused. So a section is
accepted if it reaches to the end of its tables and the start of the texts lies in it. A
section that is too short is found to be so before anyone looks at the texts, and what is
read from a section that is accepted is the section that its bytes describe
(`readsBetween_parse`).
-/

namespace FieldMap

open Bytes (ReadsBetween)

namespace ScriptHeader

/-- **The header that a section declares.** -/
def declaredBy (data : Bytes) : ScriptHeader where
  version := (data.wordAt 0).toNat
  entityCount := (data.byteAt 2).toNat
  modelCount := (data.byteAt 3).toNat
  textOffset := (data.wordAt 4).toNat
  soundCount := (data.wordAt 6).toNat
  scale := (data.wordAt 8).toNat
  creator := storedName (data.extract 16 24)
  name := storedName (data.extract 24 32)

/-- A header that is there is read. -/
theorem readsBetween_read (data : Bytes) :
    data.ReadsBetween 0 32 (read data) (.ok (declaredBy data)) := by
  have hwhole := data.readsBetween_slice .scriptHeader 0 length
  refine ⟨hwhole.le, fun hfits => ?_, fun hstart hcut => ?_⟩
  · have hbyte : ∀ item offset, offset + 1 ≤ 32 →
        data.readByte item offset = .ok (data.byteAt offset).toNat := fun item offset hle =>
      (data.readsBetween_readByte item offset).eq (Nat.le_trans hle hfits)
    have hword : ∀ item offset, offset + 2 ≤ 32 →
        data.readWord item offset = .ok (data.wordAt offset).toNat := fun item offset hle =>
      (data.readsBetween_readWord item offset).eq (Nat.le_trans hle hfits)
    have hname : ∀ item offset, offset + 8 ≤ 32 →
        data.slice item offset nameLength = .ok (data.extract offset (offset + 8)) :=
      fun item offset hle => (data.readsBetween_slice item offset 8).eq (Nat.le_trans hle hfits)
    unfold read
    rw [hwhole.eq hfits, Except.ok_bind, hword _ 0 (by decide), Except.ok_bind,
      hbyte _ 2 (by decide), Except.ok_bind, hbyte _ 3 (by decide), Except.ok_bind,
      hword _ 4 (by decide), Except.ok_bind, hword _ 6 (by decide), Except.ok_bind,
      hword _ 8 (by decide), Except.ok_bind, hname _ 16 (by decide), Except.ok_bind,
      hname _ 24 (by decide), Except.ok_bind]
    rfl
  · obtain ⟨e, herror, he⟩ := hwhole.cut hstart hcut
    refine ⟨e, ?_, he⟩
    unfold read
    rw [herror, Except.error_bind]

end ScriptHeader

namespace ScriptSection

/-- The name that stands at an offset. -/
def nameAt (data : Bytes) (offset : Nat) : String :=
  ScriptHeader.storedName (data.extract offset (offset + 8))

/-- The script positions that stand at an offset. -/
def positionsAt (data : Bytes) (offset : Nat) : List Nat :=
  (List.range 32).map fun slot => (data.wordAt (offset + 2 * slot)).toNat

/-- **The section that data describe**, with its tables at their places behind the header. -/
def describedBy (data : Bytes) : ScriptSection :=
  let header := ScriptHeader.declaredBy data
  let n := header.entityCount
  let a := header.soundCount
  { data, header
    entities := (List.range n).map fun e =>
      ⟨nameAt data (32 + 8 * e), positionsAt data (32 + 8 * n + 4 * a + 64 * e)⟩
    soundOffsets := (List.range a).map fun j =>
      ofLittleEndian (data.extract (32 + 8 * n + 4 * j) (32 + 8 * n + 4 * j + 4)).toList }

/-! ## The tables -/

section Tables

variable {α β : Type} {data : Bytes}

/-- What is at the same places for all entries is there for their number. -/
theorem mapIdx_eq_map_range (f : Nat → α) (bs : List β) :
    (bs.mapIdx fun i _ => f i) = (List.range bs.length).map f :=
  List.ext_getElem (by simp) fun i _ _ => by simp

/-- **Items of one width** stand at multiples of that width. The induction is along the
entries for which they are read, and each item is followed by the rest of them. -/
theorem readsBetween_readEach {read : β → Nat → Except CodecError (α × Nat)}
    {item : Nat → β → α} {width : Nat}
    (h : ∀ b position, data.ReadsBetween position (position + width) (read b position)
      (.ok (item position b, position + width))) (position : Nat) (bs : List β) :
    data.ReadsBetween position (position + width * bs.length) (readEach read position bs)
      (.ok (bs.mapIdx fun i => item (position + width * i), position + width * bs.length)) := by
  induction bs generalizing position with
  | nil => exact .refl ..
  | cons b rest ih =>
    have hnext : ∀ i, position + width * (i + 1) = position + width + width * i := fun i => by
      rw [Nat.mul_succ]
      omega
    rw [List.mapIdx_cons, List.length_cons]
    simp only [hnext]
    exact (h b position).bind ((ih (position + width)).bind (.refl ..))

/-- Such items, if they do not depend on the entries. -/
theorem readsBetween_readEach_range {read : Nat → Except CodecError (α × Nat)} {item : Nat → α}
    {width : Nat} (h : ∀ position, data.ReadsBetween position (position + width) (read position)
      (.ok (item position, position + width))) (position count : Nat) :
    data.ReadsBetween position (position + width * count)
      (readEach (fun _ => read) position (List.range count))
      (.ok ((List.range count).map fun i => item (position + width * i),
        position + width * count)) := by
  have heach := readsBetween_readEach (fun (_ : Nat) position => h position) position
    (List.range count)
  rwa [mapIdx_eq_map_range fun i => item (position + width * i), List.length_range] at heach

variable (data) (position : Nat)

theorem readsBetween_readName :
    data.ReadsBetween position (position + 8) (readName data position)
      (.ok (nameAt data position, position + 8)) :=
  (data.readsBetween_slice ..).bind (.refl ..)

theorem readsBetween_readSound :
    data.ReadsBetween position (position + 4) (readSound data position)
      (.ok (ofLittleEndian (data.extract position (position + 4)).toList, position + 4)) :=
  (data.readsBetween_readNumber ..).bind (.refl ..)

theorem readsBetween_readStart :
    data.ReadsBetween position (position + 2) (readStart data position)
      (.ok ((data.wordAt position).toNat, position + 2)) :=
  (data.readsBetween_readWord ..).bind (.refl ..)

theorem readsBetween_readEntity (name : String) :
    data.ReadsBetween position (position + 64) (readEntity data name position)
      (.ok (⟨name, positionsAt data position⟩, position + 64)) :=
  (readsBetween_readEach_range (readsBetween_readStart data) position scriptsPerEntity).bind
    (.refl ..)

end Tables

/-- **A section is read** from its first byte to the end of its tables. -/
theorem readsBetween_parse (data : Bytes) :
    let header := ScriptHeader.declaredBy data
    data.ReadsBetween 0 (32 + 72 * header.entityCount + 4 * header.soundCount) (parse data)
      (if header.textOffset ≤ data.size then .ok (describedBy data)
        else .error (.wrongSize .textStart data.size header.textOffset)) := by
  intro header
  let names := (List.range header.entityCount).map fun e => nameAt data (32 + 8 * e)
  let starts := 32 + 8 * header.entityCount + 4 * header.soundCount
  have hlength : names.length = header.entityCount := (List.length_map _).trans List.length_range
  have hentities := readsBetween_readEach
    (fun name position => readsBetween_readEntity data position name) starts names
  have hstop : starts + 64 * names.length
      = 32 + 72 * header.entityCount + 4 * header.soundCount := by
    rw [hlength]
    omega
  -- the names that were read go with the positions, entity by entity
  have hdescribed : (names.mapIdx fun e name =>
      (⟨name, positionsAt data (starts + 64 * e)⟩ : Entity)) = (describedBy data).entities :=
    List.ext_getElem (by simp [names, header, describedBy]) fun i _ _ => by
      simp [names, starts, header, describedBy]
  rw [hstop, hdescribed] at hentities
  unfold parse
  refine (ScriptHeader.readsBetween_read data).bind ?_
  refine (readsBetween_readEach_range (readsBetween_readName data) 32 _).bind ?_
  refine (readsBetween_readEach_range (readsBetween_readSound data) _ _).bind ?_
  exact hentities.bind (.refl ..)

/-- **The section that is read** is the one that the data describe. -/
theorem parse_eq_ok {data : Bytes} {s : ScriptSection} :
    parse data = .ok s
      ↔ (32 + 72 * (data.byteAt 2).toNat + 4 * (data.wordAt 6).toNat ≤ data.size
        ∧ (data.wordAt 4).toNat ≤ data.size) ∧ describedBy data = s := by
  have hread := readsBetween_parse data
  constructor
  · intro h
    rcases Nat.lt_or_ge data.size (32 + 72 * (data.byteAt 2).toNat + 4 * (data.wordAt 6).toNat)
      with hlt | hfits
    · obtain ⟨e, herror, -⟩ := hread.cut (Nat.zero_le _) hlt
      exact nomatch h.symm.trans herror
    · rw [hread.eq hfits] at h
      split_ifs at h with htexts
      exact ⟨⟨hfits, htexts⟩, Except.ok.inj h⟩
  · rintro ⟨⟨hfits, htexts⟩, rfl⟩
    exact (hread.eq hfits).trans (if_pos htexts)

/-- **A section is accepted exactly if it is complete.** Say that it declares `n` entities,
`a` sound blocks and texts that start at `t`. It is accepted if it reaches to the end of its
tables and `t` lies in it or at its end. A section that ends in front of that is truncated,
wherever `t` is: some item of the header or of a table does not fit. Otherwise it is only `t`
that can be wrong. In a section that was accepted, each entity has the name and the 32 script
positions, and each sound block the offset, that stand at their places in the tables. -/
theorem parse_exact {data : Bytes} {n a t : Nat} (hentities : (data.byteAt 2).toNat = n)
    (hsounds : (data.wordAt 6).toNat = a) (htexts : (data.wordAt 4).toNat = t) :
    ((∃ s, parse data = .ok s) ↔ 32 + 72 * n + 4 * a ≤ data.size ∧ t ≤ data.size)
      ∧ (data.size < 32 + 72 * n + 4 * a →
        ∃ e, parse data = .error e ∧ data.IsCutBefore (32 + 72 * n + 4 * a) e)
      ∧ (32 + 72 * n + 4 * a ≤ data.size → data.size < t →
        parse data = .error (.wrongSize .textStart data.size t))
      ∧ ∀ s, parse data = .ok s →
        s.entities = ((List.range n).map fun e =>
          { name := String.ofList (Text.Utf8.decodeLossy
              ((data.extract (32 + 8 * e) (32 + 8 * e + 8)).toList.takeWhile (· != 0)))
            positions := (List.range 32).map fun slot =>
              (data.wordAt (32 + 8 * n + 4 * a + 64 * e + 2 * slot)).toNat })
        ∧ s.soundOffsets = (List.range a).map fun j =>
          ofLittleEndian (data.extract (32 + 8 * n + 4 * j) (32 + 8 * n + 4 * j + 4)).toList := by
  subst hentities hsounds htexts
  have hread := readsBetween_parse data
  refine ⟨⟨fun ⟨s, hs⟩ => (parse_eq_ok.mp hs).1, fun hcomplete => ?_⟩,
    hread.cut (Nat.zero_le _), fun hfits hlt => ?_, fun s hs => ?_⟩
  · exact ⟨_, parse_eq_ok.mpr ⟨hcomplete, rfl⟩⟩
  · exact (hread.eq hfits).trans (if_neg (Nat.not_le.mpr hlt))
  · obtain ⟨-, rfl⟩ := parse_eq_ok.mp hs
    exact ⟨rfl, rfl⟩

/-- A section of two entities and one sound block. The second name fills its place, and the
texts start behind the only byte of the scripts. -/
def oneSound : Bytes :=
  List.toArray <| [2, 5, 2, 1, 181, 0, 1, 0, 0, 2] ++ List.replicate 22 0
    ++ [100, 105, 114, 0, 120, 0, 0, 0] ++ [99, 108, 111, 117, 100, 49, 50, 51] ++ [0x34, 0x12, 0, 0]
    ++ [181, 0] ++ (List.replicate 63 [180, 0]).flatten ++ [0] ++ [0, 0]

/-- The section is read; without its last bytes it is refused for the start of the texts, and
without the last byte of its tables it is truncated. -/
theorem parse_exact_oneSound :
    (∃ s, parse oneSound = .ok s ∧ s.entities.map Entity.name = ["dir", "cloud123"]
        ∧ s.entities.map (fun e => e.positions.take 2) = [[181, 180], [180, 180]]
        ∧ s.soundOffsets = [0x1234])
      ∧ parse (oneSound.extract 0 180) = .error (.wrongSize .textStart 180 181)
      ∧ ∃ e, parse (oneSound.extract 0 179) = .error e ∧ e.IsTruncated := by
  have hdeclared : ∀ data ∈ [oneSound, oneSound.extract 0 180, oneSound.extract 0 179],
      (Bytes.byteAt data 2).toNat = 2 ∧ (Bytes.wordAt data 6).toNat = 1
        ∧ (Bytes.wordAt data 4).toNat = 181 := by decide +kernel
  simp only [List.forall_mem_cons] at hdeclared
  obtain ⟨⟨hn, ha, ht⟩, ⟨hn', ha', ht'⟩, ⟨hn'', ha'', ht''⟩, -⟩ := hdeclared
  obtain ⟨s, hs⟩ := (parse_exact hn ha ht).1.mpr (by decide +kernel)
  obtain ⟨hentities, hsounds⟩ := (parse_exact hn ha ht).2.2.2 s hs
  refine ⟨⟨s, hs, ?_, ?_, hsounds.trans (by decide +kernel)⟩, ?_, ?_⟩
  · rw [hentities]
    decide +kernel
  · rw [hentities]
    decide +kernel
  · have hsize : (oneSound.extract 0 180).size = 180 := by decide +kernel
    have hrefused := (parse_exact hn' ha' ht').2.2.1 (Nat.le_of_eq hsize.symm)
      (Nat.lt_of_le_of_lt (Nat.le_of_eq hsize) (by decide))
    rwa [hsize] at hrefused
  · obtain ⟨e, herror, he⟩ := (parse_exact hn'' ha'' ht'').2.1 (by decide +kernel)
    exact ⟨e, herror, he.isTruncated⟩

end ScriptSection

end FieldMap
