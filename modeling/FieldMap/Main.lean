import FieldMap.CommandLine.Run

/-!
# The program

The command line over the files of the computer. Paths are taken from the
folder in which the program is called.
-/

namespace FieldMap.Main

/-- The number of an error. Some calls report it with its sign changed. -/
def errorNumber (code : UInt32) : Nat :=
  if code < 0x80000000 then code.toNat else (0 - code).toNat

/-- The fault that the number of an error stands for. -/
def faultOfNumber (code : UInt32) (details : String) : StorageFault :=
  match errorNumber code with
  | 2 => .notFound
  | 20 => .notAFolder
  | 21 => .isAFolder
  | 36 => .nameTooLong
  | number => .system number details

/-- The fault that an error of the computer stands for. -/
def faultOf (e : IO.Error) : StorageFault :=
  match e with
  | .noFileOrDirectory _ code details
  | .inappropriateType _ code details
  | .invalidArgument _ code details
  | .permissionDenied _ code details
  | .resourceExhausted _ code details
  | .otherError code details => faultOfNumber code details
  | e => .system 0 (toString e)

/-- The result of an action, or the fault at which it failed. -/
def attempt {α : Type} (action : IO α) : IO (Except StorageFault α) :=
  try
    return .ok (← action)
  catch e => return .error (faultOf e)

/-- The files below a folder; entries are visited in the order of their
names. -/
partial def filesBelow (path : String) : IO (List FoundFile) := do
  let folder := (← IO.currentDir) / path
  let entries := (← folder.readDir).toList.mergeSort fun a b => !decide (b.fileName < a.fileName)
  let found ← entries.mapM fun entry => do
    let below := path ++ "/" ++ entry.fileName
    if ← entry.path.isDir then filesBelow below
    else return [⟨entry.fileName, below⟩]
  return found.flatten

/-- The files of the computer. -/
def access : FileSystem IO where
  read path := attempt do return (← IO.FS.readBinFile path).data
  write path bytes := attempt (IO.FS.writeBinFile path ⟨bytes⟩)
  kind? path := do
    if path.isEmpty then return none
    let place := (← IO.currentDir) / path
    if ← place.isDir then return some .folder
    else if ← place.pathExists then return some .file
    else return none
  filesBelow path := attempt (filesBelow path)

end FieldMap.Main

/-- Carries out a call and prints what it gives. -/
def main (arguments : List String) : IO UInt32 := do
  let outcome ← FieldMap.CommandLine.run FieldMap.Main.access arguments
  (← IO.getStdout).putStr outcome.stdout
  (← IO.getStderr).putStr outcome.stderr
  return UInt32.ofNat outcome.status
