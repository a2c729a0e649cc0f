import FieldMap.Bytes
import FieldMap.Text.Blank
import FieldMap.Text.Utf8

/-!
# LGP archives

An archive is a table of contents and the files it lists. The table gives
a name and an offset for each file; at the offset stands a header of its
own, with the name again and the size, and then the data. Only the size
is read from there.

Names fill up their field with zero bytes, or fill it completely.
-/

namespace FieldMap

/-- **A file of an archive.** -/
structure ArchiveEntry where
  name : String
  /-- Where its header stands. -/
  offset : Nat
deriving DecidableEq, Repr

/-- **A parsed archive**, with the bytes it was read from. -/
structure Archive where
  data : Bytes
  creator : String
  entries : List ArchiveEntry

namespace Archive

/-- The length of the creator's name. -/
def creatorLength : Nat := 12

/-- The length of a file's name. -/
def nameLength : Nat := 20

/-- Where the table of contents starts. -/
def contentsOffset : Nat := creatorLength + 4

/-- The length of an entry of the table: the name, the offset, and three
bytes that are not looked at. -/
def entryLength : Nat := nameLength + 4 + 3

/-- The length of what stands before the data of a file. -/
def fileHeaderLength : Nat := nameLength + 4

/-- The text of a stored name, which ends before its first zero byte; the
blanks around it do not count. -/
def storedName (bytes : Bytes) : String :=
  String.ofList (Text.trim (Text.Utf8.decodeLossy (bytes.toList.takeWhile (· != 0))))

/-- An entry of a table of contents. -/
def entryOf (contents : Bytes) (index : Nat) : ArchiveEntry :=
  let start := index * entryLength
  ⟨storedName (contents.extract start (start + nameLength)),
    ofLittleEndian (contents.extract (start + nameLength) (start + nameLength + 4)).toList⟩

/-- **Reads the table of contents of an archive.** -/
def parse (data : Bytes) : Except CodecError Archive := do
  let creator ← data.slice .archiveCreator 0 creatorLength
  let count ← data.readLong .archiveFileCount creatorLength
  let contents ← data.slice .archiveContents contentsOffset (count * entryLength)
  return ⟨data, storedName creator, (List.range count).map (entryOf contents)⟩

/-- The first entry with a name, of which the case is ignored. -/
def find? (archive : Archive) (name : String) : Option ArchiveEntry :=
  archive.entries.find? fun entry => entry.name.map Char.toUpper == name.map Char.toUpper

/-- **The data of an entry.** -/
def read (archive : Archive) (entry : ArchiveEntry) : Except CodecError Bytes := do
  let size ← archive.data.readLong .entrySize (entry.offset + nameLength)
  archive.data.slice .entryData (entry.offset + fileHeaderLength) size

end Archive

end FieldMap
