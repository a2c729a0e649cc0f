import FieldMap.Error

/-!
# Operands

An instruction carries operands, and what an operand means decides how it
is stored: its **kind** fixes a width in bits and whether the value is
signed. The two together with the kind are the operand's *format*. Most
formats are those of a kind (`OperandKind.format`), but nothing depends on
it: the bit layer and the range check read the width and the sign only.

The range of a format is the set of values that survive being stored, so
`Operand.check` is the question whether writing this operand loses
anything. Labels are the exception: they are stored in 32 bits and kept
below `2 ^ 31`.
-/

namespace FieldMap

-- powers of numbers are those of the core library, whatever else is imported
attribute [local instance (high)] instPowNat

/-- **What an operand stands for.** -/
inductive OperandKind where
  | unknown | word | signedWord | coordX | coordY | coordZ | fieldId | tutorialId | characterId
  | discId | minigameId | byte | speed | speed16 | direction | polygonId | groupId | scriptId
  | partyId | bank | address | priority | flag | shortJump | longJump | operator | boolean
  | layerId | paramId | stateId | windowId | windowWidth | windowHeight | windowVar | keys
  | rotation | windowNum | textId | menu | windowType | itemId | materiaId | quantity | color
  | animationId | musicId | soundId | movieId | label
deriving DecidableEq, Repr

namespace OperandKind

/-- Every kind. -/
def all : List OperandKind :=
  [unknown, word, signedWord, coordX, coordY, coordZ, fieldId, tutorialId, characterId, discId,
    minigameId, byte, speed, speed16, direction, polygonId, groupId, scriptId, partyId, bank,
    address, priority, flag, shortJump, longJump, operator, boolean, layerId, paramId, stateId,
    windowId, windowWidth, windowHeight, windowVar, keys, rotation, windowNum, textId, menu,
    windowType, itemId, materiaId, quantity, color, animationId, musicId, soundId, movieId, label]

/-- No kind is missing from the list. -/
theorem mem_all (kind : OperandKind) : kind ∈ all := by
  cases kind <;> decide

/-- The width of an operand of this kind, in bits. -/
def width : OperandKind → Nat
  | label => 32
  | color => 24
  | word | signedWord | longJump | coordX | coordY | coordZ | windowWidth | windowHeight
  | itemId | speed16 | polygonId | soundId | keys | fieldId => 16
  | scriptId => 5
  | bank => 4
  | priority => 3
  | flag => 1
  | _ => 8

/-- Coordinates and signed words may be negative. -/
def signed : OperandKind → Bool
  | signedWord | coordX | coordY | coordZ => true
  | _ => false

/-- Whether an operand of this kind is the distance of a jump. -/
def isJump : OperandKind → Bool
  | shortJump | longJump => true
  | _ => false

/-- The name of a kind in messages. -/
def name : OperandKind → String
  | unknown => "Unknown"
  | word => "Word"
  | signedWord => "Signed word"
  | coordX => "X coordinate"
  | coordY => "Y coordinate"
  | coordZ => "Z coordinate"
  | fieldId => "Field"
  | tutorialId => "Tutorial"
  | characterId => "Character"
  | discId => "Disc"
  | minigameId => "Minigame"
  | byte => "Byte"
  | speed => "Speed (8-bit)"
  | speed16 => "Speed (16-bit)"
  | direction => "Direction"
  | polygonId => "Triangle"
  | groupId => "Group"
  | scriptId => "Script"
  | partyId => "Party member"
  | bank => "Bank"
  | address => "Address"
  | priority => "Priority"
  | flag => "Flag"
  | shortJump => "Short jump"
  | longJump => "Long jump"
  | operator => "Operator"
  | boolean => "Boolean"
  | layerId => "Layer"
  | paramId => "Parameter"
  | stateId => "State"
  | windowId => "Window"
  | windowWidth => "Width"
  | windowHeight => "Height"
  | windowVar => "Variable"
  | keys => "Key(s)"
  | rotation => "Rotation"
  | windowNum => "Display type"
  | textId => "Text"
  | menu => "Menu"
  | windowType => "Window type"
  | itemId => "Item"
  | materiaId => "Materia"
  | quantity => "Quantity"
  | color => "Color"
  | animationId => "Animation"
  | musicId => "Music"
  | soundId => "Sound"
  | movieId => "Movie"
  | label => "Label"

/-- The tag of a kind in written data. -/
def tag : OperandKind → String
  | unknown => "Unknown"
  | word => "Word"
  | signedWord => "SWord"
  | coordX => "CoordX"
  | coordY => "CoordY"
  | coordZ => "CoordZ"
  | fieldId => "FieldId"
  | tutorialId => "TutorialId"
  | characterId => "CharacterId"
  | discId => "DiscId"
  | minigameId => "MinigameId"
  | byte => "Byte"
  | speed => "Speed"
  | speed16 => "Speed16"
  | direction => "Direction"
  | polygonId => "PolygonId"
  | groupId => "GroupId"
  | scriptId => "ScriptId"
  | partyId => "PartyId"
  | bank => "Bank"
  | address => "Address"
  | priority => "Priority"
  | flag => "Bit"
  | shortJump => "Jump"
  | longJump => "JumpLong"
  | operator => "Operator"
  | boolean => "Boolean"
  | layerId => "LayerId"
  | paramId => "ParamId"
  | stateId => "StateId"
  | windowId => "WindowId"
  | windowWidth => "WindowWidth"
  | windowHeight => "WindowHeight"
  | windowVar => "WindowVar"
  | keys => "Keys"
  | rotation => "Rotation"
  | windowNum => "WindowNum"
  | textId => "TextId"
  | menu => "Menu"
  | windowType => "WindowType"
  | itemId => "ItemId"
  | materiaId => "MateriaId"
  | quantity => "Quantity"
  | color => "Color"
  | animationId => "AnimationId"
  | musicId => "MusicId"
  | soundId => "SoundId"
  | movieId => "MovieId"
  | label => "Label"

/-- The kind that a tag stands for. -/
def ofTag? (text : String) : Option OperandKind := all.find? fun kind => kind.tag == text

end OperandKind

/-- How an operand is stored. -/
structure OperandFormat where
  kind : OperandKind
  /-- Width in bits. -/
  width : Nat
  signed : Bool
deriving DecidableEq, Repr

namespace OperandFormat

/-- The least value of this format. -/
def min (format : OperandFormat) : Int :=
  if format.kind = .label ∨ format.signed = false then 0 else -2 ^ (format.width - 1)

/-- The greatest value of this format. -/
def max (format : OperandFormat) : Int :=
  if format.kind = .label then 2 ^ (31 : Nat) - 1
  else if format.signed then 2 ^ (format.width - 1) - 1
  else 2 ^ format.width - 1

/-- Whether a value lies in the range of the format. -/
def holds (format : OperandFormat) (value : Int) : Bool :=
  format.min ≤ value && value ≤ format.max

end OperandFormat

/-- The format of the operands of a kind. -/
def OperandKind.format (kind : OperandKind) : OperandFormat := ⟨kind, kind.width, kind.signed⟩

/-- **An operand**: a value and how it is stored. The value may lie
outside the range of the format until somebody checks it. -/
structure Operand where
  format : OperandFormat
  value : Int
deriving DecidableEq, Repr

namespace Operand

/-- An operand of a kind. -/
def ofKind (kind : OperandKind) (value : Int) : Operand := ⟨kind.format, value⟩

/-- A byte whose meaning is not known. -/
def raw (byte : UInt8) : Operand := ofKind .unknown byte.toNat

/-- Refuses a value that storing would change. -/
def check (operand : Operand) : Except CodecError Unit :=
  if operand.format.holds operand.value then .ok ()
  else .error (.valueOutOfRange operand.value operand.format.min operand.format.max)

end Operand

end FieldMap
