import FieldMap.CommandLine.Arguments
import FieldMap.CommandLine.Output
import FieldMap.Dialog
import FieldMap.FieldFile
import FieldMap.Listing.Printer
import FieldMap.Script.Json
import FieldMap.Script.Labels
import FieldMap.ScriptSection

/-!
# Listing the scripts of a field

A dump opens with a line on the field, and goes on with a listing of every
script under a line that names it. These lines and those of the dialog
texts are comments of the listing, so that the whole can be assembled. In
JSON the opening is an object and every script an array on one line.
-/

namespace FieldMap.CommandLine

open FieldMap.Text

/-- The opening of a dump. -/
def dumpHeader (json : Bool) (header : ScriptHeader) : String :=
  if json then header.toJson.pretty ++ "\n"
  else
    "# " ++ header.name ++ " by " ++ header.creator ++ ", " ++ decimal header.entityCount ++
      " entities\n"

/-- The name of an entity of a section. -/
def entityName (s : ScriptSection) (entity : Nat) : String :=
  (s.entities[entity]?.map Entity.name).getD ""

/-- The script in a slot, in symbolic form unless distances are asked
for. -/
def dumpScript (rawJumps : Bool) (name : String) (slot : ScriptSlot) : Except Failure Script := do
  let about := name ++ "/" ++ decimal slot.index
  let bytecode ← slot.bytecode.mapError fun e => [e.message]
  let script ← (Script.decode bytecode.toList).mapError fun e =>
    ["decoding script " ++ about, e.message]
  if rawJumps then return script
  else (Script.insertLabels script).mapError fun e => ["labelling script " ++ about, e.message]

/-- What a dump prints for a slot. -/
def dumpSlot (json rawJumps : Bool) (s : ScriptSection) (slot : ScriptSlot) :
    Except Failure String := do
  let name := entityName s slot.entity
  let script ← dumpScript rawJumps name slot
  return if json then (Script.toJson script).compact ++ "\n"
    else "\n# " ++ name ++ " script " ++ decimal slot.index ++ "\n" ++ Script.listing script

/-- What a dump prints for a dialog text. -/
def dumpText (s : ScriptSection) (index : Nat) : Except Failure String := do
  let codes ← (s.text index).mapError fun e => [e.message]
  return "# text " ++ decimal index ++ ": " ++ Dialog.decode codes.toList ++ "\n"

/-- What a dump prints for all dialog texts. -/
def dumpTexts (s : ScriptSection) : List (Except Failure String) :=
  .ok "\n" ::
    match s.textCount with
    | .error e => [.error [e.message]]
    | .ok count => (List.range count).map (dumpText s)

/-- The slots that a dump goes through. -/
def dumpSlots (entity : Option Nat) (s : ScriptSection) : List ScriptSlot :=
  s.scripts.filter fun slot =>
    match entity with
    | none => true
    | some wanted => slot.entity == wanted

/-- **What a dump prints.** -/
def dump (json : Bool) (options : DumpOptions) (file : FieldFile) : List (Except Failure String) :=
  match ScriptSection.parse file.scripts with
  | .error e => [.error [e.message]]
  | .ok s =>
    .ok (dumpHeader json s.header) ::
      (dumpSlots options.entity s).map (dumpSlot json options.rawJumps s) ++
      if options.texts then dumpTexts s else []

end FieldMap.CommandLine
