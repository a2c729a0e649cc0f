import FieldMap.FileSystem.Basic
import FieldMap.Verification.Report

/-!
# Running a verification

The input of a verification is taken from a file system: an archive if the
path of the settings leads to a file, and the files below it if it leads
to a folder. Everything after that is a function of the input.
-/

namespace FieldMap.Verification

/-- **Why a verification cannot be run.** -/
inductive RunError where
  | storage (fault : StorageFault)
  | walk (fault : StorageFault)
  | badSettings
  | archive (path : String) (error : CodecError)
  | missingInput (path : String)
deriving DecidableEq, Repr

namespace RunError

/-- What is wrong with settings that cannot be read. -/
def settingsFault : String := "malformed settings"

/-- The wording of an error. -/
def message : RunError → String
  | storage fault => "IO error: " ++ fault.message
  | walk fault => "directory walk failed: " ++ fault.message
  | badSettings => "settings file is invalid: " ++ settingsFault
  | archive path error => path ++ ": " ++ error.message
  | missingInput path => "configuration error: Input path does not exist: " ++ path

/-- The errors below an error, for a full account of what went wrong. -/
def causes : RunError → List String
  | storage fault | walk fault => [fault.message]
  | badSettings => [settingsFault]
  | archive _ error => [error.message]
  | missingInput _ => []

end RunError

variable {m : Type → Type} [Monad m]

/-- Reads settings from a file. -/
def Settings.load (fs : FileSystem m) (path : String) : m (Except RunError Settings) := do
  match ← fs.readText path with
  | .error fault => return .error (.storage fault)
  | .ok text =>
    match Settings.ofJson? text with
    | some settings => return .ok settings
    | none => return .error .badSettings

/-- Reads an archive. -/
def loadArchive (fs : FileSystem m) (path : String) : m (Except RunError Input) := do
  match ← fs.read path with
  | .error fault => return .error (.storage fault)
  | .ok data =>
    match Archive.parse data with
    | .error e => return .error (.archive path e)
    | .ok archive => return .ok (.archive path archive)

/-- Reads the files below a folder, as far as the settings ask for
them. -/
def loadFolder (fs : FileSystem m) (settings : Settings) : m (Except RunError Input) := do
  match ← fs.filesBelow settings.inputPath with
  | .error fault => return .error (.walk fault)
  | .ok files =>
    match ← fs.readFiles [] (files.filter fun file => settings.wants file.name) with
    | .error fault => return .error (.storage fault)
    | .ok contents => return .ok (.folder contents)

/-- **Reads the input that the settings name.** -/
def loadInput (fs : FileSystem m) (settings : Settings) : m (Except RunError Input) := do
  match ← fs.kind? settings.inputPath with
  | none => return .error (.missingInput settings.inputPath)
  | some .file => loadArchive fs settings.inputPath
  | some .folder => loadFolder fs settings

/-- **Runs a verification.** -/
def run (fs : FileSystem m) (settings : Settings) : m (Except RunError Report) := do
  let input ← loadInput fs settings
  return input.map (verify settings)

end FieldMap.Verification
