import FieldMap.FieldFile
import FieldMap.Journal.Note

/-!
# Notes on compressed data

Decompression notes how many bytes stand behind the stated end of the
payload, if there are any, whether or not the payload can be read.
-/

namespace FieldMap

/-- What decompressing data behind its length leaves. -/
def Lzs.decompressNotes (data : Bytes) : List Note :=
  match data.readLong .compressedSize 0 with
  | .error _ => []
  | .ok declared =>
    if declared < data.size - 4 then [.trailingBytes (data.size - 4 - declared)] else []

/-- What reading a field file leaves. -/
def FieldFile.parseNotes (compressed : Bool) (data : Bytes) : List Note :=
  if compressed then Lzs.decompressNotes data else []

end FieldMap
