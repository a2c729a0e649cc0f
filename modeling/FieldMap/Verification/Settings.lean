import FieldMap.Json.Outline

/-!
# Settings of a verification

A verification looks at field files in a folder or in an archive. Its
settings say which of them it looks at and what it checks. They can be
read from JSON, in either of two forms: an object with any of the known
members, of which none may stand twice, or an array of the values in the
order of the members. What is missing has its default; unknown members are
ignored.
-/

namespace FieldMap.Verification

/-- **What to verify.** -/
structure Settings where
  /-- A folder of field files, or an archive. -/
  inputPath : String
  /-- Whether the field files are compressed. -/
  compressed : Bool
  checkScripts : Bool
  checkEncounters : Bool
  checkBackgrounds : Bool
  /-- Only names that contain this text, if there is one. -/
  filter : Option String
deriving DecidableEq, Repr

namespace Settings

open FieldMap.Json (Outline Token)

/-- Everything in compressed files is checked. -/
def default : Settings := ⟨"", true, true, true, true, none⟩

/-- The names of the members, in order. -/
def memberNames : List String :=
  ["input_path", "compressed", "check_scripts", "check_encounters", "check_backgrounds", "filter"]

/-- The settings with the value of a member. A member of another name is
ignored. -/
def setMember (settings : Settings) (name : String) (value : Outline) : Option Settings :=
  if name = "input_path" then
    value.toText?.map fun text => { settings with inputPath := text }
  else if name = "compressed" then
    value.toBool?.map fun b => { settings with compressed := b }
  else if name = "check_scripts" then
    value.toBool?.map fun b => { settings with checkScripts := b }
  else if name = "check_encounters" then
    value.toBool?.map fun b => { settings with checkEncounters := b }
  else if name = "check_backgrounds" then
    value.toBool?.map fun b => { settings with checkBackgrounds := b }
  else if name = "filter" then
    value.toOptionalText?.map fun text => { settings with filter := text }
  else some settings

/-- Sets members one after the other. -/
def setMembers (settings : Settings) : List (String × Outline) → Option Settings
  | [] => some settings
  | (name, value) :: rest => (settings.setMember name value).bind fun next => next.setMembers rest

/-- Whether a known member stands twice. -/
def hasDuplicate (members : List (String × Outline)) : Bool :=
  memberNames.any fun name => 1 < members.countP fun member => member.1 == name

/-- The settings that an outline stands for. -/
def ofOutline? : Outline → Option Settings
  | .object members => do
    let members ← members.mapM fun (key, value) => do
      let name ← Token.unescape key
      return (String.ofList name, value)
    if hasDuplicate members then none else default.setMembers members
  | .array items =>
    if memberNames.length < items.length then none
    else default.setMembers (memberNames.zip items)
  | _ => none

/-- **The settings that JSON text stands for.** -/
def ofJson? (text : String) : Option Settings := (Outline.ofText text).bind ofOutline?

end Settings

end FieldMap.Verification
