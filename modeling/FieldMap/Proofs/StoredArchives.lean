import FieldMap.Proofs.ArchiveNames
import FieldMap.Proofs.Placement

/-!
# Archives as they are stored

A file of an archive is described in two places, by its entry in the table of contents and by
the header in front of its data. Both begin with the name and a number behind it, which is the
offset of the header in the one and the size of the data in the other. Three bytes more close
an entry, so that the numbers of the table stand 27 bytes apart.

Nothing but the size of the data decides whether an archive can be read: the table has to lie
in it (`parse_eq_ok`), and so has the data of an entry if it is to be taken out
(`read_eq_ok`). Offsets are not looked at before that.

If the files stand one behind the other, then the entries hold running offsets
(`entriesFrom`). The table is read as these entries (`map_entryFrom`), and each entry leads to
the file that it was made for (`map_read_entriesFrom`), by induction on the files, with the
table and the files taken apart in step.
-/

namespace FieldMap

-- powers of numbers are those of the core library, whatever else is imported
attribute [local instance (high)] instPowNat

namespace Archive

variable {data : Bytes} {archive : Archive}

/-! ## What data describe -/

/-- **The number behind a name**, which is the offset in an entry and the size in front of the
data of a file. -/
def numberBehindName (data : Bytes) (start : Nat) : Nat :=
  ofLittleEndian (data.extract (start + 20) (start + 24)).toList

/-- The entry of a table of contents whose bytes begin at a place. -/
def entryFrom (data : Bytes) (start : Nat) : ArchiveEntry where
  name := storedName (data.extract start (start + 20))
  offset := numberBehindName data start

/-- **The number of files** that data declare. -/
def fileCount (data : Bytes) : Nat := ofLittleEndian (data.extract 12 16).toList

/-- **The archive that data describe**, with its entries 27 bytes apart. -/
def describedBy (data : Bytes) : Archive where
  data
  creator := storedName (data.extract 0 12)
  entries := (List.range (fileCount data)).map fun i => entryFrom data (16 + 27 * i)

/-- An entry is read from the table alone as it is read from all of the data. -/
theorem entryOf_extract (data : Bytes) {count i : Nat} (h : i < count) :
    entryOf (data.extract 16 (16 + count * 27)) i = entryFrom data (16 + 27 * i) := by
  have hpart : ∀ start stop, stop ≤ count * 27 →
      (data.extract 16 (16 + count * 27)).extract start stop
        = data.extract (16 + start) (16 + stop) := fun start stop hstop => by
    rw [Array.extract_extract, Nat.min_eq_left (Nat.add_le_add_left hstop 16)]
  have hend : i * 27 + 24 ≤ count * 27 := by omega
  show ArchiveEntry.mk (storedName (Array.extract _ (i * 27) (i * 27 + 20)))
    (ofLittleEndian (Array.extract _ (i * 27 + 20) (i * 27 + 24)).toList) = _
  rw [hpart _ _ (by omega), hpart _ _ hend, Nat.mul_comm i]
  rfl

/-- **An archive is read** if its table of contents lies in the data. -/
theorem parse_eq_ok :
    parse data = .ok archive
      ↔ 16 + 27 * fileCount data ≤ data.size ∧ archive = describedBy data := by
  have hentries : (List.range (fileCount data)).map
        (entryOf (data.extract 16 (16 + fileCount data * 27)))
      = (describedBy data).entries :=
    List.map_congr_left fun i hi => entryOf_extract data (List.mem_range.mp hi)
  unfold parse
  simp only [Except.bind_eq_ok, Bytes.slice_eq_ok, Bytes.readLong, Bytes.readNumber_eq_ok]
  constructor
  · rintro ⟨creator, ⟨-, rfl⟩, count, ⟨-, rfl⟩, contents, ⟨hfits, rfl⟩, harchive⟩
    refine ⟨Nat.mul_comm 27 _ ▸ hfits, (Except.ok.inj harchive).symm.trans ?_⟩
    exact congrArg (Archive.mk data _) hentries
  · rintro ⟨hfits, rfl⟩
    refine ⟨_, ⟨?_, rfl⟩, _, ⟨?_, rfl⟩, _, ⟨Nat.mul_comm 27 _ ▸ hfits, rfl⟩, ?_⟩
    · exact Nat.le_trans (by decide) (Nat.le_trans (Nat.le_add_right 16 _) hfits)
    · exact Nat.le_trans (Nat.le_add_right 16 _) hfits
    · exact congrArg (Except.ok ∘ Archive.mk data _) hentries

/-- **The data of an entry can be taken out** if they lie in the archive, with their header. -/
theorem read_eq_ok {entry : ArchiveEntry} {content : Bytes} :
    archive.read entry = .ok content
      ↔ entry.offset + 24 + numberBehindName archive.data entry.offset ≤ archive.data.size
        ∧ archive.data.extract (entry.offset + 24)
          (entry.offset + 24 + numberBehindName archive.data entry.offset) = content := by
  unfold read
  simp only [Except.bind_eq_ok, Bytes.slice_eq_ok, Bytes.readLong, Bytes.readNumber_eq_ok]
  constructor
  · rintro ⟨size, ⟨-, rfl⟩, hread⟩
    exact hread
  · intro hread
    exact ⟨_, ⟨Nat.le_trans (Nat.le_add_right _ _) hread.1, rfl⟩, hread⟩

/-- **The entry that is found** is the first one with the name. -/
theorem find?_eq_some {name : String} {entry : ArchiveEntry} :
    archive.find? name = some entry
      ↔ Text.SameLetters entry.name name
        ∧ ∃ front back, archive.entries = front ++ entry :: back
          ∧ ∀ other ∈ front, ¬Text.SameLetters other.name name := by
  unfold find?
  simp only [List.find?_eq_some_iff_append, beq_iff_eq, Bool.not_eq_true', beq_eq_false_iff_ne,
    ne_eq, Text.map_toUpper_eq]

theorem find?_eq_none {name : String} :
    archive.find? name = none
      ↔ ∀ entry ∈ archive.entries, ¬Text.SameLetters entry.name name := by
  unfold find?
  simp only [List.find?_eq_none, beq_iff_eq, Text.map_toUpper_eq]

end Archive

/-! ## Files one behind the other -/

/-- **A file to be stored in an archive**, with the three bytes that close its entry in the
table of contents. -/
structure ArchiveFile where
  name : String
  isStorable : Archive.IsStorable name
  closing : Vector UInt8 3
  content : Bytes

namespace ArchiveFile

open Archive (nameField)

/-- The bytes of a file behind the table of contents: its header and its data. -/
def stored (file : ArchiveFile) : List UInt8 :=
  nameField file.name ++ toLittleEndian 4 file.content.size ++ file.content.toList

/-- The bytes of a file in the table of contents, given its offset. -/
def listed (file : ArchiveFile) (offset : Nat) : List UInt8 :=
  nameField file.name ++ toLittleEndian 4 offset ++ file.closing.toList

theorem length_header (file : ArchiveFile) (n : Nat) :
    (nameField file.name ++ toLittleEndian 4 n).length = 24 := by
  rw [List.length_append, file.isStorable.length_nameField, length_toLittleEndian]
  rfl

theorem length_listed (file : ArchiveFile) (offset : Nat) : (file.listed offset).length = 27 := by
  unfold listed
  rw [List.length_append, length_header, Vector.length_toList]

end ArchiveFile

namespace Archive

variable {data : Bytes}

/-- **The entries of files** that stand one behind the other, from an offset on. -/
def entriesFrom (offset : Nat) : List ArchiveFile → List ArchiveEntry
  | [] => []
  | file :: rest => ⟨file.name, offset⟩ :: entriesFrom (offset + file.stored.length) rest

/-- **The table of contents of files** that stand one behind the other, from an offset on. -/
def contentsFrom (offset : Nat) : List ArchiveFile → List UInt8
  | [] => []
  | file :: rest => file.listed offset ++ contentsFrom (offset + file.stored.length) rest

/-- **The archive of files**: the table of contents, and the files one behind the other. -/
def bytesOf (creator : Vector UInt8 12) (files : List ArchiveFile) : Bytes :=
  List.toArray <| creator.toList ++ toLittleEndian 4 files.length
    ++ contentsFrom (16 + 27 * files.length) files ++ files.flatMap ArchiveFile.stored

theorem length_contentsFrom (offset : Nat) (files : List ArchiveFile) :
    (contentsFrom offset files).length = 27 * files.length := by
  induction files generalizing offset with
  | nil => rfl
  | cons file rest ih =>
    rw [contentsFrom, List.length_append, file.length_listed, ih, List.length_cons, Nat.mul_succ,
      Nat.add_comm]

/-- **A name and the number behind it** are read where they stand. -/
theorem entryFrom_of_holdsAt {start n : Nat} (file : ArchiveFile)
    (h : data.HoldsAt start (nameField file.name ++ toLittleEndian 4 n)) (hn : n < 2 ^ 32) :
    entryFrom data start = ⟨file.name, n⟩ := by
  have hname := h.left.extract
  have hnumber := h.behind file.isStorable.length_nameField
  rw [file.isStorable.length_nameField] at hname
  show ArchiveEntry.mk (storedName (data.extract start (start + nameLength)))
    (ofLittleEndian (data.extract (start + nameLength) (start + nameLength + 4)).toList) = _
  rw [hname, file.isStorable.storedName_nameField, hnumber.ofLittleEndian_extract hn]

/-- **The table of contents is read** as the entries of the files. -/
theorem map_entryFrom (hsize : data.size < 2 ^ 32) {start offset : Nat} {files : List ArchiveFile}
    (htable : data.HoldsAt start (contentsFrom offset files))
    (hstored : data.HoldsAt offset (files.flatMap ArchiveFile.stored)) :
    ((List.range files.length).map fun i => entryFrom data (start + 27 * i))
      = entriesFrom offset files := by
  induction files generalizing start offset with
  | nil => rfl
  | cons file rest ih =>
    rw [contentsFrom] at htable
    rw [List.flatMap_cons] at hstored
    have hoffset : offset < 2 ^ 32 :=
      Nat.lt_of_le_of_lt (Nat.le_trans (Nat.le_add_right ..) hstored.le_size) hsize
    have hfirst := entryFrom_of_holdsAt file htable.left.left hoffset
    have hrest := ih (htable.behind (file.length_listed offset)) hstored.right
    rw [List.length_cons, List.range_succ_eq_map, List.map_cons, List.map_map, entriesFrom]
    refine congrArg₂ List.cons hfirst ?_
    rw [← hrest]
    refine List.map_congr_left fun i _ => congrArg (entryFrom data) ?_
    show start + 27 * (i + 1) = _
    rw [Nat.mul_succ, Nat.add_assoc, Nat.add_comm 27]

/-- **A file is taken out** where it stands. -/
theorem read_of_holdsAt {archive : Archive} (hsize : archive.data.size < 2 ^ 32) {offset : Nat}
    (file : ArchiveFile) (h : archive.data.HoldsAt offset file.stored) :
    archive.read ⟨file.name, offset⟩ = .ok file.content := by
  have hcontent := h.behind (file.length_header file.content.size)
  have hlt : file.content.size < 2 ^ 32 :=
    Nat.lt_of_le_of_lt (Nat.le_trans (Nat.le_add_left ..) hcontent.le_size) hsize
  have hnumber : numberBehindName archive.data offset = file.content.size :=
    congrArg ArchiveEntry.offset (entryFrom_of_holdsAt file h.left hlt)
  refine read_eq_ok.mpr ?_
  rw [hnumber]
  exact ⟨hcontent.le_size, hcontent.extract⟩

/-- **Each entry leads to its file.** -/
theorem map_read_entriesFrom {archive : Archive} (hsize : archive.data.size < 2 ^ 32) {offset : Nat}
    {files : List ArchiveFile}
    (h : archive.data.HoldsAt offset (files.flatMap ArchiveFile.stored)) :
    (entriesFrom offset files).map (fun entry => (entry.name, archive.read entry))
      = files.map fun file => (file.name, .ok file.content) := by
  induction files generalizing offset with
  | nil => rfl
  | cons file rest ih =>
    rw [List.flatMap_cons] at h
    rw [entriesFrom, List.map_cons, List.map_cons, ih h.right, read_of_holdsAt hsize file h.left]

/-- **The archive of files is read** as their entries. -/
theorem parse_bytesOf (creator : Vector UInt8 12) (files : List ArchiveFile)
    (hsize : (bytesOf creator files).size < 2 ^ 32) :
    parse (bytesOf creator files) = .ok (describedBy (bytesOf creator files))
      ∧ (describedBy (bytesOf creator files)).entries
        = entriesFrom (16 + 27 * files.length) files
      ∧ (bytesOf creator files).HoldsAt (16 + 27 * files.length)
        (files.flatMap ArchiveFile.stored) := by
  have hall : (bytesOf creator files).HoldsAt 0 _ := .toArray _
  have hhead : (creator.toList ++ toLittleEndian 4 files.length).length = 16 := by
    rw [List.length_append, Vector.length_toList, length_toLittleEndian]
  have htable := hall.left.right
  have hstored := hall.right
  rw [hhead, Nat.zero_add] at htable
  rw [List.length_append, hhead, length_contentsFrom, Nat.zero_add] at hstored
  have hfits : 16 + 27 * files.length ≤ (bytesOf creator files).size :=
    Nat.le_trans (Nat.le_add_right ..) hstored.le_size
  have hcount : fileCount (bytesOf creator files) = files.length := by
    have hnumber := hall.left.left.behind creator.length_toList
    rw [Nat.zero_add] at hnumber
    refine hnumber.ofLittleEndian_extract (n := files.length) ?_
    show files.length < 2 ^ 32
    omega
  refine ⟨parse_eq_ok.mpr ⟨hcount ▸ hfits, rfl⟩, ?_, hstored⟩
  unfold describedBy
  dsimp only
  rw [hcount]
  exact map_entryFrom hsize htable hstored

/-- **Archives are read exactly.** Data are an archive just if the table of contents that they
declare lies in them, and then it is the archive that they describe. The data of an entry can
be taken out just if its header and as many bytes as this declares lie in the archive, and
then they are these bytes. So an archive of files, if all of it has less than 2³² bytes, is
read with the names and the contents of the files in their order. A search finds the first
entry whose name has the letters of the given one, and nothing if there is none. -/
theorem files_read_exactly :
    (∀ (data : Bytes) (archive : Archive),
      parse data = .ok archive
        ↔ 16 + 27 * fileCount data ≤ data.size ∧ archive = describedBy data)
      ∧ (∀ (archive : Archive) (entry : ArchiveEntry) (content : Bytes),
        archive.read entry = .ok content
          ↔ entry.offset + 24 + numberBehindName archive.data entry.offset ≤ archive.data.size
            ∧ archive.data.extract (entry.offset + 24)
              (entry.offset + 24 + numberBehindName archive.data entry.offset) = content)
      ∧ (∀ (creator : Vector UInt8 12) (files : List ArchiveFile),
        (bytesOf creator files).size < 2 ^ 32 →
          ∃ archive, parse (bytesOf creator files) = .ok archive
            ∧ archive.entries.map (fun entry => (entry.name, archive.read entry))
              = files.map fun file => (file.name, .ok file.content))
      ∧ ∀ (archive : Archive) (name : String),
        (∀ entry, archive.find? name = some entry
          ↔ Text.SameLetters entry.name name
            ∧ ∃ front back, archive.entries = front ++ entry :: back
              ∧ ∀ other ∈ front, ¬Text.SameLetters other.name name)
        ∧ (archive.find? name = none
          ↔ ∀ entry ∈ archive.entries, ¬Text.SameLetters entry.name name) := by
  refine ⟨fun data archive => parse_eq_ok, fun archive entry content => read_eq_ok,
    fun creator files hsize => ?_, fun archive name => ⟨fun entry => find?_eq_some, find?_eq_none⟩⟩
  obtain ⟨hparse, hentries, hstored⟩ := parse_bytesOf creator files hsize
  refine ⟨_, hparse, ?_⟩
  rw [hentries]
  exact map_read_entriesFrom hsize hstored

/-- An empty file whose name fills its field, and a file of two bytes. -/
def twoFiles : List ArchiveFile :=
  [⟨"abcdefghijklmnopqrst", by decide +kernel, ⟨#[14, 0, 0], rfl⟩, #[]⟩,
    ⟨"md1_1", by decide +kernel, ⟨#[14, 0, 0], rfl⟩, #[7, 8]⟩]

/-- The two files are read from an archive, the second one is found by its capitals, and a
third one is not there. -/
theorem files_read_exactly_twoFiles :
    ∃ archive, parse (bytesOf (.replicate 12 65) twoFiles) = .ok archive
      ∧ archive.entries.map (fun entry => (entry.name, archive.read entry))
        = [("abcdefghijklmnopqrst", .ok #[]), ("md1_1", .ok #[7, 8])]
      ∧ (∃ entry, archive.find? "MD1_1" = some entry ∧ archive.read entry = .ok #[7, 8])
      ∧ archive.find? "md1_2" = none := by
  obtain ⟨-, -, hfiles, hfind⟩ := files_read_exactly
  obtain ⟨archive, hparse, hentries⟩ := hfiles (.replicate 12 65) twoFiles (by decide +kernel)
  refine ⟨archive, hparse, hentries, ?_⟩
  obtain ⟨first, rest, harchive, hfirst, hrest⟩ := List.map_eq_cons_iff.mp hentries
  obtain ⟨second, rest, rfl, hsecond, hnone⟩ := List.map_eq_cons_iff.mp hrest
  obtain rfl := List.map_eq_nil_iff.mp hnone
  obtain ⟨hfirst, -⟩ := Prod.mk.inj hfirst
  obtain ⟨hsecond, hread⟩ := Prod.mk.inj hsecond
  refine ⟨⟨second, ((hfind archive "MD1_1").1 second).mpr ⟨?_, [first], [], harchive, ?_⟩, hread⟩,
    (hfind archive "md1_2").2.mpr ?_⟩
  · rw [hsecond]
    decide +kernel
  · rw [List.forall_mem_singleton, hfirst]
    decide +kernel
  · rw [harchive, List.forall_mem_cons, List.forall_mem_singleton, hfirst, hsecond]
    decide +kernel

end Archive

end FieldMap
