import FieldMap.Bytes
import FieldMap.Text.Number

/-!
# Access to files

The program reads files, goes through folders and writes one file. It does
so through a `FileSystem`, a record of the operations that it needs, in
whatever monad they take place: the files of a computer, or a `FileTree`,
which is a value.
-/

namespace FieldMap

/-- **Why a file cannot be read or written.** -/
inductive StorageFault where
  | notFound
  /-- Part of the path is a file, where a folder is needed. -/
  | notAFolder
  | isAFolder
  /-- A part of the path is longer than names may be. -/
  | nameTooLong
  /-- The file was to be text, and is not well formed. -/
  | notText
  /-- Any other fault of a computer, with its number and its wording. -/
  | system (code : Nat) (text : String)
deriving DecidableEq, Repr

/-- The wording of a fault. -/
def StorageFault.message : StorageFault → String
  | notFound => "No such file or directory (os error 2)"
  | notAFolder => "Not a directory (os error 20)"
  | isAFolder => "Is a directory (os error 21)"
  | nameTooLong => "File name too long (os error 36)"
  | notText => "stream did not contain valid UTF-8"
  | system code text => text ++ " (os error " ++ Text.decimal code ++ ")"

/-- What a path leads to. -/
inductive EntryKind where
  | file
  | folder
deriving DecidableEq, Repr

/-- A file that was found below a folder. -/
structure FoundFile where
  /-- The last part of its path. -/
  name : String
  path : String
deriving DecidableEq, Repr

/-- **The operations on files.** -/
structure FileSystem (m : Type → Type) where
  read : String → m (Except StorageFault Bytes)
  write : String → Bytes → m (Except StorageFault Unit)
  /-- What a path leads to, if it leads anywhere. -/
  kind? : String → m (Option EntryKind)
  /-- All files below a folder, at any depth. Those of one folder are in
  the order of their names, and the files of a folder inside it stand
  where its name belongs. -/
  filesBelow : String → m (Except StorageFault (List FoundFile))

namespace FileSystem

/-- The text in bytes, if they are well formed. -/
def textOf (bytes : Bytes) : Except StorageFault String :=
  match String.fromUTF8? ⟨bytes⟩ with
  | some text => .ok text
  | none => .error .notText

/-- Reads a file of text. -/
def readText {m : Type → Type} [Monad m] (fs : FileSystem m) (path : String) :
    m (Except StorageFault String) := do
  let bytes ← fs.read path
  return bytes.bind textOf

/-- Reads files, up to the first that cannot be read, behind those that
are `done`, which are kept in reverse. -/
def readFiles {m : Type → Type} [Monad m] (fs : FileSystem m) (done : List (String × Bytes)) :
    List FoundFile → m (Except StorageFault (List (String × Bytes)))
  | [] => return .ok done.reverse
  | file :: rest => do
    match ← fs.read file.path with
    | .error fault => return .error fault
    | .ok bytes => readFiles fs ((file.name, bytes) :: done) rest

end FileSystem

end FieldMap
