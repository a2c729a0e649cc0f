import FieldMap.Background.Store
import FieldMap.Encounter
import FieldMap.FieldFile
import FieldMap.Script.Labels
import FieldMap.ScriptSection
import FieldMap.Verification.Settings

/-!
# Verifying a field

Three parts of a field file are checked, each only if the settings ask for
it. Every script has to survive the way into its symbolic form and back;
the encounter section has to come back as it was; and the background has
to be readable. What fails is collected, and nothing that fails keeps
anything else from being checked.

A field is sound when no problem was found.
-/

namespace FieldMap.Verification

open FieldMap.Text

/-- **What can be wrong with a field.** -/
inductive Problem where
  /-- The file cannot be taken out of its archive. -/
  | unreadable (error : CodecError)
  | scriptSection (error : CodecError)
  | script (entity : String) (index : Nat) (error : CodecError)
  | encounters (error : CodecError)
  | background (error : CodecError)
deriving DecidableEq, Repr

/-- The wording of a problem. -/
def Problem.message : Problem → String
  | .unreadable error => error.message
  | .scriptSection error => "section 1: " ++ error.message
  | .script entity index error =>
    "script " ++ entity ++ "/" ++ decimal index ++ ": " ++ error.message
  | .encounters error => "encounters: " ++ error.message
  | .background error => "background: " ++ error.message

/-- **What was found out about a field.** -/
structure FieldReport where
  name : String
  scriptsChecked : Nat
  scriptsFailed : Nat
  /-- Whether the encounter section came back, if it was checked. -/
  encounterOk : Option Bool
  /-- The number of tiles, if the background was checked and readable. -/
  tiles : Option Nat
  problems : List Problem
deriving DecidableEq, Repr

namespace FieldReport

/-- Whether no problem was found. -/
def isOk (report : FieldReport) : Bool := report.problems.isEmpty

/-- The report on a file that cannot be taken out of its archive. -/
def unreadable (name : String) (error : CodecError) : FieldReport :=
  ⟨name, 0, 0, none, none, [.unreadable error]⟩

end FieldReport

/-- What is wrong with one script, if anything is. -/
def scriptProblem? (s : ScriptSection) (slot : ScriptSlot) : Option Problem :=
  match slot.bytecode.bind fun bytes => Script.roundTrip bytes.toList with
  | .ok _ => none
  | .error e =>
    some (.script ((s.entities[slot.entity]?.map Entity.name).getD "") slot.index e)

/-- The number of scripts checked, and what is wrong with them. -/
def checkScripts (data : Bytes) : Nat × List Problem :=
  match ScriptSection.parse data with
  | .error e => (0, [.scriptSection e])
  | .ok s => (s.scripts.length, s.scripts.filterMap (scriptProblem? s))

/-- Whether the encounter section comes back, and what is wrong with
it. -/
def checkEncounters (data : Bytes) : Bool × List Problem :=
  match EncounterSection.parse data with
  | .error e => (false, [.encounters e])
  | .ok encounters => (encounters.save == data, [])

/-- The number of tiles of a background, and what is wrong with it. -/
def checkBackground (data paletteData : Bytes) : Option Nat × List Problem :=
  match ((BackgroundStore.ofBytes data).decode paletteData).1 with
  | .error e => (none, [.background e])
  | .ok background => (some background.tiles.length, [])

/-- Whether a problem is that of a single script. -/
def Problem.isScript : Problem → Bool
  | .script _ _ _ => true
  | _ => false

/-- **Verifies a field.** -/
def verifyField (settings : Settings) (name : String) (file : FieldFile) : FieldReport :=
  let (checked, scriptProblems) :=
    if settings.checkScripts then checkScripts file.scripts else (0, [])
  let (encounterOk, encounterProblems) :=
    if settings.checkEncounters then
      let (ok, problems) := checkEncounters file.encounter
      (some ok, problems)
    else (none, [])
  let (tiles, backgroundProblems) :=
    if settings.checkBackgrounds then checkBackground file.background file.palette
    else (none, [])
  ⟨name, checked, scriptProblems.countP Problem.isScript, encounterOk, tiles,
    scriptProblems ++ encounterProblems ++ backgroundProblems⟩

end FieldMap.Verification
