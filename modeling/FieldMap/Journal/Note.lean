import FieldMap.Error

/-!
# The journal

Reading and editing leave *notes*: observations that change no result but
that somebody who follows the work wants to see. The functions that do the
work know nothing of them. Beside a function stands another one that gives
its notes from the same arguments, so that what is computed can be studied
without what is reported.
-/

namespace FieldMap

/-- How much attention a note asks for. -/
inductive NoteLevel where
  | debug
  | info
  | warn
deriving DecidableEq, Repr

/-- The name of a level. -/
def NoteLevel.name : NoteLevel → String
  | .debug => "DEBUG"
  | .info => "INFO"
  | .warn => "WARN"

/-- **An observation made on the way.** -/
inductive Note where
  /-- An instruction of unknown meaning is read. -/
  | undocumented (id : UInt8) (mnemonic : String)
  | labelsInserted (count : Nat)
  /-- Compressed data has bytes behind its stated end. -/
  | trailingBytes (count : Nat)
  | palettesFailed (error : CodecError)
  | tilesFailed (error : CodecError)
  | texturesFailed (offset : Nat) (error : CodecError)
  | tileLayoutRead (slots layers endOffset : Nat)
  | tileAllocated (index : Nat) (layer : UInt8)
  /-- Data to be verified is no field file. -/
  | notAField (name : String) (error : CodecError)
  | problemsFound (name : String) (count : Nat)
  | archiveOpened (path : String) (entries : Nat)
  | verified (summary : String)
deriving DecidableEq, Repr

namespace Note

open FieldMap.Text

/-- The level of a note. -/
def level : Note → NoteLevel
  | undocumented _ _ | palettesFailed _ | tilesFailed _ | texturesFailed _ _
  | problemsFound _ _ => .warn
  | archiveOpened _ _ | verified _ => .info
  | _ => .debug

/-- The wording of a note. -/
def message : Note → String
  | undocumented id mnemonic =>
    "opcode " ++ hexId 2 id.toNat ++ " (" ++ mnemonic ++ ") is undocumented, keeping raw bytes"
  | labelsInserted count => "inserted " ++ decimal count ++ " labels"
  | trailingBytes count => "LZS stream has " ++ decimal count ++ " trailing bytes"
  | palettesFailed error => "background palettes: " ++ error.message
  | tilesFailed error => "background tiles: " ++ error.message
  | texturesFailed offset error =>
    "background textures at " ++ address offset ++ ": " ++ error.message
  | tileLayoutRead slots layers endOffset =>
    decimal slots ++ " tile slots over " ++ decimal layers ++ " layers, tiles end at " ++
      address endOffset
  | tileAllocated index layer =>
    "tile " ++ decimal index ++ " allocated in layer " ++ decimal layer.toNat
  | notAField name error => name ++ ": not a field (" ++ error.message ++ ")"
  | problemsFound name count => name ++ ": " ++ decimal count ++ " problem(s)"
  | archiveOpened path entries => path ++ ": " ++ decimal entries ++ " entries"
  | verified summary => summary

/-- A note as a line of the journal. -/
def line (note : Note) : String := note.level.name ++ " " ++ note.message

end Note

end FieldMap
