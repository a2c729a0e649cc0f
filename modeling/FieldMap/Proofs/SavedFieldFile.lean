import FieldMap.FieldFile
import FieldMap.Proofs.LastEdits
import FieldMap.Proofs.LzsHistory
import FieldMap.Proofs.Placement

/-!
# Saved field files are read back

A field file is saved as its header, the nine positions and the nine sections, each
behind its size. The positions are those of sections that stand one behind the other,
so the entry of a section in the header says how much stands in front of it
(`holdsAt_entry`, `holdsAt_stored`), and a reader that follows it finds the section
again, with whatever stands behind the file.

A file that was cut off does not parse. Its reader is stopped by a read that is cut
short, since the last section ends where the file ends, and what can be read from the
front of a file can be read from all of it.
-/

namespace FieldMap.FieldFile

variable {data : Bytes} {file : FieldFile} {kind : SectionKind}

/-! ## How a file is stored -/

/-- A section as it is stored, behind its size. -/
def stored (content : Bytes) : List UInt8 := toLittleEndian 4 content.size ++ content.toList

theorem length_stored (content : Bytes) : (stored content).length = content.size + 4 := by
  unfold stored
  rw [List.length_append, length_toLittleEndian, Array.length_toList, Nat.add_comm]

/-- **Where a section stands** in a saved file. -/
def position (file : FieldFile) (kind : SectionKind) : Nat :=
  headerLength + ((file.contents.take kind.index).flatMap stored).length

theorem getElem?_contents (file : FieldFile) (kind : SectionKind) :
    file.contents[kind.index]? = some (file.content kind) := by
  cases kind <;> rfl

/-- Each position is that of a section in front of which the earlier ones stand. -/
theorem foldl_positions (contents : List Bytes) (start : Nat) :
    contents.foldl (fun position content => position + content.size + 4) start
      = start + (contents.flatMap stored).length := by
  induction contents generalizing start with
  | nil => rfl
  | cons content rest ih =>
    rw [List.foldl_cons, ih, List.flatMap_cons, List.length_append, length_stored]
    omega

theorem getElem?_positions (file : FieldFile) (kind : SectionKind) :
    (positions file.contents)[kind.index]? = some (file.position kind) := by
  have hlt := (List.getElem?_eq_some_iff.mp (file.getElem?_contents kind)).1
  unfold positions
  rw [List.getElem?_take_of_lt hlt, List.getElem?_scanl, if_pos (Nat.le_of_lt hlt), foldl_positions]
  rfl

theorem length_positions (file : FieldFile) : (positions file.contents).length = sectionCount := by
  unfold positions
  rw [List.length_take, List.length_scanl]
  exact Nat.min_eq_left (Nat.le_succ _)

/-- Writing one section behind the other. -/
theorem toList_foldl_stored (contents : List Bytes) (out : Bytes) :
    (contents.foldl (fun (out content : Bytes) => out ++ toLittleEndian 4 content.size ++ content)
      out).toList = out.toList ++ contents.flatMap stored := by
  induction contents generalizing out with
  | nil => exact (List.append_nil _).symm
  | cons content rest ih =>
    rw [List.foldl_cons, ih, List.flatMap_cons, Array.toList_append, Array.toList_appendList,
      List.append_assoc, List.append_assoc]
    rfl

/-- **A saved file** is its header, the positions, and the sections. -/
theorem toList_save (file : FieldFile) :
    file.save.toList = [0, 0] ++ (toLittleEndian 4 sectionCount ++
      ((positions file.contents).flatMap (toLittleEndian 4) ++ file.contents.flatMap stored)) := by
  unfold save
  rw [toList_foldl_stored]
  simp only [List.append_assoc]

theorem length_entries (file : FieldFile) :
    ((positions file.contents).flatMap (toLittleEndian 4)).length = sectionCount * 4 := by
  rw [Bytes.length_flatMap_of_forall fun _ _ => length_toLittleEndian 4 _, length_positions]

theorem size_save (file : FieldFile) :
    file.save.size = headerLength + (file.contents.flatMap stored).length := by
  rw [← Array.length_toList, toList_save]
  simp only [List.length_append, length_entries, length_toLittleEndian, headerLength]
  show 2 + _ = _
  omega

/-! ## Where things stand in a saved file -/

theorem holdsAt_save (file : FieldFile) : file.save.HoldsAt 0 ([0, 0] ++
    (toLittleEndian 4 sectionCount ++
      ((positions file.contents).flatMap (toLittleEndian 4) ++ file.contents.flatMap stored))) :=
  ⟨[], [], by rw [toList_save]; exact (List.append_nil _).symm, rfl⟩

theorem holdsAt_sectionCount (file : FieldFile) :
    file.save.HoldsAt 2 (toLittleEndian 4 sectionCount) := file.holdsAt_save.right.left

/-- **The header says where a section stands.** -/
theorem holdsAt_entry (file : FieldFile) (kind : SectionKind) :
    file.save.HoldsAt (6 + 4 * kind.index) (toLittleEndian 4 (file.position kind)) := by
  have hentries := (file.holdsAt_save.right.behind (length_toLittleEndian ..)).left
  rw [Nat.mul_comm]
  exact hentries.entry (fun _ _ => length_toLittleEndian ..) (file.getElem?_positions kind)

/-- **A section stands at its position.** -/
theorem holdsAt_stored (file : FieldFile) (kind : SectionKind) :
    file.save.HoldsAt (file.position kind) (stored (file.content kind)) := by
  have hentries := file.holdsAt_save.right.behind (length_toLittleEndian ..)
  have hsections := hentries.behind file.length_entries
  exact hsections.flatMap (file.getElem?_contents kind)

/-- No section ends behind the end of the file. -/
theorem position_le (file : FieldFile) (kind : SectionKind) :
    file.position kind + ((file.content kind).size + 4) ≤ file.save.size :=
  length_stored (file.content kind) ▸ (file.holdsAt_stored kind).le_size

/-- **The last section** ends where the file ends. -/
theorem position_background (file : FieldFile) :
    file.position .background + ((file.content .background).size + 4) = file.save.size := by
  have hlast : file.contents = file.contents.take 8 ++ [file.content .background] := rfl
  rw [size_save, hlast, List.flatMap_append, List.length_append, List.flatMap_singleton,
    length_stored]
  exact Nat.add_assoc ..

/-! ## Reading sections -/

/-- **A section that stands where the header says** is read. -/
theorem readSection_of_holdsAt {position : Nat} {content : Bytes}
    (hentry : data.HoldsAt (6 + 4 * kind.index) (toLittleEndian 4 position))
    (hstored : data.HoldsAt position (stored content)) (hposition : position < 2 ^ 32)
    (hsize : content.size < 2 ^ 32) : readSection data kind = .ok content := by
  have hcontent := (hstored.behind (length_toLittleEndian ..)).slice Array.length_toList .sectionData
  rw [Array.toArray_toList] at hcontent
  unfold readSection
  rw [Bytes.readLong, hentry.readNumber (hposition.trans_eq (by decide)), Except.ok_bind,
    Bytes.readLong, hstored.left.readNumber (hsize.trans_eq (by decide)), Except.ok_bind, hcontent]

/-- **What is read from the front of some data** is read from all of it, and does not
reach behind this front. -/
theorem readSection_of_extract {stop : Nat} {content : Bytes}
    (h : readSection (data.extract 0 stop) kind = .ok content) :
    readSection data kind = .ok content
      ∧ ∃ position, data.readLong .sectionPosition (6 + 4 * kind.index) = .ok position
        ∧ position + (content.size + 4) ≤ stop := by
  unfold readSection at h ⊢
  obtain ⟨position, hposition, h⟩ := Except.bind_eq_ok.mp h
  obtain ⟨size, hsize, h⟩ := Except.bind_eq_ok.mp h
  have hposition' : data.readLong .sectionPosition (6 + 4 * kind.index) = .ok position :=
    Bytes.readNumber_of_extract hposition
  have hsize' : data.readLong .sectionSize position = .ok size := Bytes.readNumber_of_extract hsize
  rw [hposition', Except.ok_bind, hsize', Except.ok_bind]
  refine ⟨Bytes.slice_of_extract h, position, rfl, ?_⟩
  obtain ⟨hle, rfl⟩ := Bytes.slice_eq_ok.mp h
  rw [Array.size_extract] at hle ⊢
  omega

/-- **The sections are read** if each of them is. -/
theorem readSections_eq_ok :
    readSections data = .ok file ↔ ∀ kind, readSection data kind = .ok (file.content kind) := by
  unfold readSections
  constructor
  · intro h
    obtain ⟨scripts, hscripts, h⟩ := Except.bind_eq_ok.mp h
    obtain ⟨camera, hcamera, h⟩ := Except.bind_eq_ok.mp h
    obtain ⟨modelLoader, hmodelLoader, h⟩ := Except.bind_eq_ok.mp h
    obtain ⟨palette, hpalette, h⟩ := Except.bind_eq_ok.mp h
    obtain ⟨walkmesh, hwalkmesh, h⟩ := Except.bind_eq_ok.mp h
    obtain ⟨tileMap, htileMap, h⟩ := Except.bind_eq_ok.mp h
    obtain ⟨encounter, hencounter, h⟩ := Except.bind_eq_ok.mp h
    obtain ⟨triggers, htriggers, h⟩ := Except.bind_eq_ok.mp h
    obtain ⟨background, hbackground, h⟩ := Except.bind_eq_ok.mp h
    rw [← Except.ok.inj h]
    intro kind
    cases kind <;> assumption
  · intro h
    rw [h .scripts, Except.ok_bind, h .camera, Except.ok_bind, h .modelLoader, Except.ok_bind,
      h .palette, Except.ok_bind, h .walkmesh, Except.ok_bind, h .tileMap, Except.ok_bind,
      h .encounter, Except.ok_bind, h .triggers, Except.ok_bind, h .background, Except.ok_bind]
    rfl

/-! ## What stops the reader of a file that was cut off -/

theorem isTruncated_of_readSection {e : CodecError} (h : readSection data kind = .error e) :
    e.IsTruncated := by
  unfold readSection at h
  obtain h | ⟨position, -, h⟩ := Except.bind_eq_error.mp h
  · exact Bytes.isTruncated_of_readNumber h
  · obtain h | ⟨size, -, h⟩ := Except.bind_eq_error.mp h
    · exact Bytes.isTruncated_of_readNumber h
    · exact Bytes.isTruncated_of_slice h

/-- Sections that cannot be read are cut short, whichever of them it is. -/
theorem isTruncated_of_readSections {e : CodecError} (h : readSections data = .error e) :
    e.IsTruncated := by
  unfold readSections at h
  iterate 9
    obtain hsection | ⟨_, -, h⟩ := Except.bind_eq_error.mp h
    · exact isTruncated_of_readSection hsection
  exact nomatch h

/-- **A file with the right number of sections** is cut short if it cannot be parsed. -/
theorem isTruncated_of_parse {e : CodecError} (h : parse data = .error e)
    (hcount : ∀ count, data.readLong .sectionCount 2 = .ok count → count = sectionCount) :
    e.IsTruncated := by
  unfold parse at h
  obtain h | ⟨header, -, h⟩ := Except.bind_eq_error.mp h
  · exact Bytes.isTruncated_of_slice h
  · obtain h | ⟨count, hread, h⟩ := Except.bind_eq_error.mp h
    · exact Bytes.isTruncated_of_readNumber h
    · rw [if_pos (hcount count hread)] at h
      exact isTruncated_of_readSections h

/-- A file that was parsed has the right number of sections, and they were read. -/
theorem readSections_of_parse (h : parse data = .ok file) : readSections data = .ok file := by
  unfold parse at h
  obtain ⟨header, -, h⟩ := Except.bind_eq_ok.mp h
  obtain ⟨count, -, h⟩ := Except.bind_eq_ok.mp h
  split_ifs at h
  exact h

theorem readLong_sectionCount_save (file : FieldFile) :
    file.save.readLong .sectionCount 2 = .ok sectionCount :=
  file.holdsAt_sectionCount.readNumber (by decide) _

section Save

variable (hsize : file.save.size < 2 ^ 32)

include hsize

theorem readLong_position_save (kind : SectionKind) :
    file.save.readLong .sectionPosition (6 + 4 * kind.index) = .ok (file.position kind) := by
  have hle := file.position_le kind
  have hlt : file.position kind < 2 ^ 32 := by omega
  exact (file.holdsAt_entry kind).readNumber (hlt.trans_eq (by decide)) _

theorem readSection_save_append (kind : SectionKind) (tail : Bytes) :
    readSection (file.save ++ tail) kind = .ok (file.content kind) := by
  have hle := file.position_le kind
  exact readSection_of_holdsAt ((file.holdsAt_entry kind).append tail)
    ((file.holdsAt_stored kind).append tail) (by omega) (by omega)

/-- **A saved file is read back**, whatever stands behind it. -/
theorem parse_save_append (tail : Bytes) : parse (file.save ++ tail) = .ok file := by
  have hheader : headerLength ≤ (file.save ++ tail).size := by
    rw [Array.size_append, size_save]
    omega
  have hcount : Bytes.readLong (file.save ++ tail) .sectionCount 2 = .ok sectionCount :=
    (file.holdsAt_sectionCount.append tail).readNumber (by decide) _
  unfold parse
  rw [Bytes.slice_eq_ok.mpr ⟨by omega, rfl⟩, Except.ok_bind, hcount, Except.ok_bind, if_pos rfl]
  exact readSections_eq_ok.mpr fun kind => readSection_save_append hsize kind tail

/-- **The front of a saved file cannot be parsed.** Its reader finds nothing that is not in
the file, so it would find the last section where it stands, and in front of its end. -/
theorem isTruncated_of_lt {length : Nat} (hlt : length < file.save.size) :
    ∃ e, parse (file.save.extract 0 length) = .error e ∧ e.IsTruncated := by
  cases hparse : parse (file.save.extract 0 length) with
  | error e =>
    refine ⟨e, rfl, isTruncated_of_parse hparse fun count hread => ?_⟩
    exact Except.ok.inj
      ((Bytes.readNumber_of_extract hread).symm.trans file.readLong_sectionCount_save)
  | ok other =>
    have hsection := readSections_eq_ok.mp (readSections_of_parse hparse) .background
    obtain ⟨hcontent, position, hposition, hle⟩ := readSection_of_extract hsection
    have hsame := readSection_save_append hsize .background #[]
    rw [Array.append_empty, hcontent, Except.ok.injEq] at hsame
    rw [readLong_position_save hsize, Except.ok.injEq] at hposition
    have hlast := file.position_background
    rw [← hsame, hposition] at hlast
    omega

end Save

/-! ## Files that were edited -/

/-- The file after sections were set, one after the other. -/
def setAll (file : FieldFile) (edits : List (SectionKind × Bytes)) : FieldFile :=
  edits.foldl (fun file (kind, data) => file.setContent kind data) file

/-- **A section holds what it was set to last**, and what it held before if it was not
set. -/
theorem content_setAll (file : FieldFile) (edits : List (SectionKind × Bytes))
    (kind : SectionKind) :
    (file.setAll edits).content kind = (edits.lastSet? kind).getD (file.content kind) :=
  List.get_foldl_set content_setContent file edits kind

/-- **Field files survive saving.** Take any file, set any of its sections any number of
times, and let the saved file be smaller than four gigabytes. What is saved is as long
as the header and the sections with their sizes. It is parsed as the file again,
whatever stands behind it, so that each section holds what it was set to last. No
proper part of it from the front can be parsed, for want of bytes. And it is parsed if
it is compressed without references, as long as this is smaller than four gigabytes. -/
theorem parse_saved {original file : FieldFile} {edits : List (SectionKind × Bytes)}
    (hedits : original.setAll edits = file) (hsize : file.save.size < 2 ^ 32) :
    file.save.size = 42 + (file.contents.map fun content => content.size + 4).sum
      ∧ (∀ tail : Bytes, parse (file.save ++ tail) = .ok file)
      ∧ (∀ kind, file.content kind = (edits.lastSet? kind).getD (original.content kind))
      ∧ (∀ length < file.save.size, ∃ item offset needed available,
        parse (file.save.extract 0 length) = .error (.truncated item offset needed available))
      ∧ ((Lzs.packLiterals file.save.toList).length < 2 ^ 32 →
        parseCompressed (toLittleEndian 4 (Lzs.packLiterals file.save.toList).length ++
          Lzs.packLiterals file.save.toList).toArray = .ok file) := by
  refine ⟨?_, parse_save_append hsize, fun kind => ?_, fun length hlt => ?_, fun hpacked => ?_⟩
  · rw [size_save, List.length_flatMap]
    exact congrArg (42 + List.sum ·) (List.map_congr_left fun content _ => length_stored content)
  · rw [← hedits]
    exact original.content_setAll edits kind
  · obtain ⟨e, hparse, item, offset, needed, available, rfl⟩ := isTruncated_of_lt hsize hlt
    exact ⟨item, offset, needed, available, hparse⟩
  · have hne : file.save.toList ≠ [] := by
      rw [toList_save]
      exact List.cons_ne_nil _ _
    have hparse := parse_save_append hsize #[]
    unfold parseCompressed
    rw [Lzs.decompress_packLiterals hne hpacked, Except.ok_bind, Array.toArray_toList]
    rwa [Array.append_empty] at hparse

/-- A file all of whose sections are the same four bytes of size and single byte. -/
def overlapping : Bytes :=
  List.toArray <| [0, 0, 9, 0, 0, 0] ++ (List.replicate 9 [42, 0, 0, 0]).flatten ++ [1, 0, 0, 0, 7]

/-- What is in it: nine times the same byte. -/
def sevens : FieldFile := ⟨#[7], #[7], #[7], #[7], #[7], #[7], #[7], #[7], #[7]⟩

/-- Sections that overlap come apart when they are saved, and an empty one is kept. -/
theorem parse_saved_overlapping :
    parse overlapping = .ok sevens
      ∧ (sevens.setAll [(.camera, #[1]), (.background, #[]), (.camera, #[2, 3])]).save.size = 87
      ∧ parse ((sevens.setAll [(.camera, #[1]), (.background, #[]), (.camera, #[2, 3])]).save ++ #[5])
        = .ok ⟨#[7], #[2, 3], #[7], #[7], #[7], #[7], #[7], #[7], #[]⟩ := by
  obtain ⟨hlength, hparse, -⟩ := parse_saved
    (rfl : sevens.setAll [(.camera, #[1]), (.background, #[]), (.camera, #[2, 3])] = _)
    (by decide +kernel)
  exact ⟨by decide +kernel, hlength, hparse #[5]⟩

end FieldMap.FieldFile
