import FieldMap.Journal.Background
import FieldMap.Journal.Compression
import FieldMap.Journal.Script
import FieldMap.Verification.Report

/-!
# Notes on verifications

A verification leaves the notes of everything it reads, in the order in
which it reads it, and adds how many problems a field has, which files are
no field files, and at the end its summary.
-/

namespace FieldMap.Verification

/-- What checking scripts leaves. -/
def checkScriptsNotes (data : Bytes) : List Note :=
  match ScriptSection.parse data with
  | .error _ => []
  | .ok s => s.scripts.flatMap fun slot =>
    match slot.bytecode with
    | .error _ => []
    | .ok bytes => Script.roundTripNotes bytes.toList

/-- What verifying a field leaves. -/
def verifyFieldNotes (settings : Settings) (name : String) (file : FieldFile) : List Note :=
  let problems := (verifyField settings name file).problems.length
  (if settings.checkScripts then checkScriptsNotes file.scripts else []) ++
    (if settings.checkBackgrounds then
      (BackgroundStore.ofBytes file.background).decodeNotes file.palette
    else []) ++
    (if problems = 0 then [] else [.problemsFound name problems])

/-- What verifying the file with a name leaves. -/
def verifyFileNotes (settings : Settings) (name : String) (data : Bytes) : List Note :=
  FieldFile.parseNotes settings.compressed data ++
    match parseField settings data with
    | .ok file => verifyFieldNotes settings name file
    | .error e => [.notAField name e]

/-- What verifying an entry of an archive leaves. -/
def verifyEntryNotes (settings : Settings) (archive : Archive) (entry : ArchiveEntry) : List Note :=
  match archive.read entry with
  | .ok data => verifyFileNotes settings entry.name data
  | .error _ => []

/-- What verifying all files of an input leaves. -/
def verifyNotes (settings : Settings) (input : Input) : List Note :=
  (match input with
    | .archive path archive =>
      .archiveOpened path archive.entries.length ::
        (wantedEntries settings archive).flatMap (verifyEntryNotes settings archive)
    | .folder files =>
      (wantedFiles settings files).flatMap fun (name, data) => verifyFileNotes settings name data) ++
    [.verified (verify settings input).summary]

end FieldMap.Verification
