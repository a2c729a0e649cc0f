import FieldMap.CommandLine.Dump
import FieldMap.CommandLine.Show
import FieldMap.FileSystem.Basic
import FieldMap.Listing.Assembly
import FieldMap.Verification.Run

/-!
# Carrying out a call

Every command reads what it needs from a file system and then computes
what it prints. A verification that finds a problem fails after it has
printed its report.
-/

namespace FieldMap.CommandLine

open FieldMap.Text
open FieldMap.Verification (Settings Report RunError)

variable {m : Type → Type} [Monad m]

/-- Reads a field file. -/
def loadField (fs : FileSystem m) (uncompressed : Bool) (path : String) :
    m (Except Failure FieldFile) := do
  match ← fs.read path with
  | .error fault => return .error ["reading " ++ path, fault.message]
  | .ok data =>
    let file := if uncompressed then FieldFile.parse data else FieldFile.parseCompressed data
    return file.mapError fun e => ["parsing " ++ path, e.message]

/-- Prints what a field file gives. -/
def withField (fs : FileSystem m) (uncompressed : Bool) (path : String)
    (output : FieldFile → List (Except Failure String)) : m (List (Except Failure String)) := do
  match ← loadField fs uncompressed path with
  | .error failure => return [.error failure]
  | .ok file => return output file

/-- Assembles a listing and writes the bytecode. -/
def assembleFile (fs : FileSystem m) (listing output : String) (rawJumps : Bool) :
    m (List (Except Failure String)) := do
  match ← fs.readText listing with
  | .error fault => return [.error ["reading " ++ listing, fault.message]]
  | .ok text =>
    match Listing.assemble rawJumps text with
    | .error e => return [.error (("assembling " ++ listing) :: e.messages)]
    | .ok bytes =>
      match ← fs.write output bytes.toArray with
      | .error fault => return [.error ["writing " ++ output, fault.message]]
      | .ok _ => return []

/-- The account of a verification that cannot be run. -/
def runFailure (e : RunError) : Failure := e.message :: e.causes

/-- Settings with what a call says in their stead. -/
def overrideSettings (settings : Settings) (uncompressed : Bool) (options : VerifyOptions) :
    Settings where
  inputPath := options.input.getD settings.inputPath
  compressed := if uncompressed then false else settings.compressed
  checkScripts := settings.checkScripts
  checkEncounters := settings.checkEncounters
  checkBackgrounds := if options.skipBackgrounds then false else settings.checkBackgrounds
  filter := if options.filter.isSome then options.filter else settings.filter

/-- The lines of a report. -/
def reportLines (report : Report) : String :=
  String.join ((report.fields.flatMap fun field =>
    field.problems.map fun problem => field.name ++ ": " ++ problem.message ++ "\n")) ++
    report.summary ++ "\n"

/-- What a verification prints. -/
def printReport (json : Bool) (report : Report) : List (Except Failure String) :=
  .ok (if json then report.toJson.pretty ++ "\n" else reportLines report) ::
    if 0 < report.failed then [.error [decimal report.failed ++ " field(s) failed"]] else []

/-- Verifies field files. -/
def verifyFiles (fs : FileSystem m) (flags : GlobalFlags) (options : VerifyOptions) :
    m (List (Except Failure String)) := do
  let settings ← match options.config with
    | some path => Settings.load fs path
    | none => pure (.ok Settings.default)
  match settings with
  | .error e => return [.error (runFailure e)]
  | .ok settings =>
    match ← Verification.run fs (overrideSettings settings flags.uncompressed options) with
    | .error e => return [.error (runFailure e)]
    | .ok report => return printReport flags.json report

/-- What a call prints. -/
def output (fs : FileSystem m) (call : Call) : m (List (Except Failure String)) :=
  let flags := call.flags
  match call.command with
  | .dump field options => withField fs flags.uncompressed field (dump flags.json options)
  | .encounter field => withField fs flags.uncompressed field (showEncounters flags.json)
  | .background field => withField fs flags.uncompressed field (showBackground flags.json)
  | .assemble listing file rawJumps => assembleFile fs listing file rawJumps
  | .verify options => verifyFiles fs flags options

/-- **Carries out a call.** -/
def run (fs : FileSystem m) (arguments : List String) : m Outcome := do
  match parse arguments with
  | none => return .usage
  | some call =>
    let parts ← output fs call
    return .ofPrinted (printed parts)

end FieldMap.CommandLine
