import FieldMap.Archive
import FieldMap.Json.Value
import FieldMap.Text.Search
import FieldMap.Verification.Field

/-!
# Verifying many files

A verification goes through the files of a folder or of an archive, of
which the filter of its settings may leave some out. Every other file has
exactly one *outcome*: it was verified, with a report, or it was skipped,
because it is no field file. Archives hold such files as well, and
skipping them is no failure; a file that an archive lists but does not
hold is one.

The report of the whole keeps the outcomes in their order.
-/

namespace FieldMap.Verification

open FieldMap.Text

-- the sum of no numbers is the zero of the core library, whatever else is imported
attribute [local instance (high)] Zero.ofOfNat0

/-- **What became of one file.** -/
inductive FileOutcome where
  | verified (report : FieldReport)
  | skipped (name : String) (error : CodecError)
deriving DecidableEq, Repr

/-- **The report of a verification.** -/
structure Report where
  fields : List FieldReport
  /-- The names of the files that were no field files. -/
  skipped : List String
deriving DecidableEq, Repr

/-- Whether the settings ask for a file of this name. -/
def Settings.wants (settings : Settings) (name : String) : Bool :=
  match settings.filter with
  | none => true
  | some text => contains text.toList name.toList

/-- Reads a field file as the settings say. -/
def parseField (settings : Settings) (data : Bytes) : Except CodecError FieldFile :=
  if settings.compressed then FieldFile.parseCompressed data else FieldFile.parse data

/-- Verifies the file with a name. -/
def verifyFile (settings : Settings) (name : String) (data : Bytes) : FileOutcome :=
  match parseField settings data with
  | .ok file => .verified (verifyField settings name file)
  | .error e => .skipped name e

/-- Verifies an entry of an archive. -/
def verifyEntry (settings : Settings) (archive : Archive) (entry : ArchiveEntry) : FileOutcome :=
  match archive.read entry with
  | .ok data => verifyFile settings entry.name data
  | .error e => .verified (.unreadable entry.name e)

/-- The files that a verification goes through. -/
inductive Input where
  | archive (path : String) (archive : Archive)
  /-- The files of a folder, with their names. -/
  | folder (files : List (String × Bytes))

/-- The entries of an archive that the settings ask for. -/
def wantedEntries (settings : Settings) (archive : Archive) : List ArchiveEntry :=
  archive.entries.filter fun entry => settings.wants entry.name

/-- The files of a folder that the settings ask for. -/
def wantedFiles (settings : Settings) (files : List (String × Bytes)) : List (String × Bytes) :=
  files.filter fun file => settings.wants file.1

/-- **What becomes of every file that the settings ask for.** -/
def outcomes (settings : Settings) : Input → List FileOutcome
  | .archive _ archive => (wantedEntries settings archive).map (verifyEntry settings archive)
  | .folder files => (wantedFiles settings files).map fun (name, data) => verifyFile settings name data

namespace Report

/-- The report of outcomes. -/
def ofOutcomes (outcomes : List FileOutcome) : Report where
  fields := outcomes.filterMap fun
    | .verified report => some report
    | .skipped _ _ => none
  skipped := outcomes.filterMap fun
    | .verified _ => none
    | .skipped name _ => some name

/-- The number of fields with a problem. -/
def failed (report : Report) : Nat := report.fields.countP fun field => !field.isOk

/-- The report in one line. -/
def summary (report : Report) : String :=
  "fields: " ++ decimal report.fields.length ++ " (" ++ decimal report.failed ++ " failed, " ++
    decimal report.skipped.length ++ " skipped), scripts: " ++
    decimal (report.fields.map FieldReport.scriptsChecked).sum ++ " (" ++
    decimal (report.fields.map FieldReport.scriptsFailed).sum ++ " failed)"

end Report

/-- The report of one field as JSON. -/
def FieldReport.toJson (report : FieldReport) : Json :=
  .object [("name", .string report.name), ("scripts_checked", .nat report.scriptsChecked),
    ("scripts_failed", .nat report.scriptsFailed),
    ("encounter_ok", .optional .bool report.encounterOk), ("tiles", .optional .nat report.tiles),
    ("errors", .array (report.problems.map fun problem => .string problem.message))]

/-- The report of a verification as JSON. -/
def Report.toJson (report : Report) : Json :=
  .object [("fields", .array (report.fields.map FieldReport.toJson)),
    ("skipped", .array (report.skipped.map Json.string))]

/-- **Verifies all files of an input.** -/
def verify (settings : Settings) (input : Input) : Report :=
  .ofOutcomes (outcomes settings input)

end FieldMap.Verification
