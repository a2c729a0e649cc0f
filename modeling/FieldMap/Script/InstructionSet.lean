import FieldMap.Script.Operand

/-!
# The instruction set

An instruction is known by its first byte. For each of the 256 ids the
table below gives the mnemonic, the length in bytes with the id included,
and the kinds of the operands in the order in which they are stored: banks
first, two to a byte, then the values they qualify. An id without kinds
carries raw bytes.

Three ids do not have a fixed length. `0x0F` and `0x28` dispatch on a
second id, and `0x1C` states how many bytes follow its fixed part. Their
rows give the length of what is always there.

Ids without a known meaning are *undocumented*: their operands are raw,
and decoding one leaves a note.

Labels are no instructions of the machine. They have the id `0x100`, out
of reach of a byte, and a row of their own.
-/

namespace FieldMap

-- the sum of no numbers is the zero of the core library, whatever else is imported
attribute [local instance (high)] Zero.ofOfNat0

/-- What is known of an instruction id. -/
structure InstructionInfo where
  mnemonic : String
  /-- Length in bytes, the id included. -/
  length : Nat
  /-- Whether the meaning of the instruction is known. -/
  documented : Bool
  /-- The kinds of the operands in stored order; none if they are raw. -/
  kinds : List OperandKind
deriving DecidableEq, Repr

namespace InstructionInfo

/-- The formats of the operands. -/
def formats (info : InstructionInfo) : List OperandFormat := info.kinds.map OperandKind.format

/-- Bits that the operands take up. -/
def bitLength (info : InstructionInfo) : Nat := (info.kinds.map OperandKind.width).sum

end InstructionInfo

namespace InstructionSet

/-- The id of the instructions with a sub-instruction of fixed payload. -/
def specialId : UInt8 := 0x0F

/-- The id of the instructions that state their own length. -/
def kawaiId : UInt8 := 0x28

/-- The id of the instruction that states the length of a payload behind
its fixed part. -/
def extendedId : UInt8 := 0x1C

/-- The id of labels, which no byte has. -/
def labelId : Nat := 0x100

/-- An instruction whose operands have kinds. -/
def typed (mnemonic : String) (length : Nat) (kinds : List OperandKind) : InstructionInfo :=
  ⟨mnemonic, length, true, kinds⟩

/-- A known instruction whose operands are raw bytes. -/
def raw (mnemonic : String) (length : Nat) : InstructionInfo := ⟨mnemonic, length, true, []⟩

/-- An instruction of unknown meaning. -/
def undocumented (mnemonic : String) (length : Nat) : InstructionInfo := ⟨mnemonic, length, false, []⟩

open OperandKind in
/-- **The instructions by id.** -/
def table : Array InstructionInfo :=
  #[
    -- 0x00
    raw "RET" 1,
    typed "REQ" 3 [groupId, priority, scriptId],
    typed "REQSW" 3 [groupId, priority, scriptId],
    typed "REQEW" 3 [groupId, priority, scriptId],
    typed "PREQ" 3 [partyId, priority, scriptId],
    typed "PRQSW" 3 [partyId, priority, scriptId],
    typed "PRQEW" 3 [partyId, priority, scriptId],
    typed "RETTO" 2 [priority, scriptId],
    typed "JOIN" 2 [speed],
    typed "SPLIT" 15 [bank, bank, bank, bank, bank, bank, coordX, coordY, direction, coordX,
      coordY, direction, speed],
    typed "SPTYE" 6 [bank, bank, bank, bank, partyId, partyId, partyId],
    typed "GTPYE" 6 [bank, bank, bank, bank, partyId, partyId, partyId],
    undocumented "UNUSED0C" 1,
    undocumented "UNUSED0D" 1,
    typed "DSKCG" 2 [discId],
    raw "SPECIAL" 2,
    -- 0x10
    typed "JMPF" 2 [shortJump],
    typed "JMPFL" 3 [longJump],
    typed "JMPB" 2 [shortJump],
    typed "JMPBL" 3 [longJump],
    typed "IFUB" 6 [bank, bank, byte, byte, operator, shortJump],
    typed "IFUBL" 7 [bank, bank, byte, byte, operator, longJump],
    typed "IFSW" 8 [bank, bank, signedWord, signedWord, operator, shortJump],
    typed "IFSWL" 9 [bank, bank, signedWord, signedWord, operator, longJump],
    typed "IFUW" 8 [bank, bank, word, word, operator, shortJump],
    typed "IFUWL" 9 [bank, bank, word, word, operator, longJump],
    undocumented "UNUSED1A" 10,
    undocumented "UNUSED1B" 3,
    undocumented "UNUSED1C" 6,
    undocumented "UNUSED1D" 1,
    undocumented "UNUSED1E" 1,
    undocumented "UNUSED1F" 1,
    -- 0x20
    typed "MINIGAME" 11 [fieldId, coordX, coordY, polygonId, byte, minigameId],
    typed "TUTOR" 2 [tutorialId],
    typed "BTMD2" 5 (List.replicate 32 flag),
    typed "BTRLD" 3 [bank, bank, byte],
    typed "WAIT" 3 [word],
    typed "NFADE" 9 [unknown, unknown, unknown, color, unknown, unknown],
    typed "BLINK" 2 [boolean],
    typed "BGMOVIE" 2 [boolean],
    raw "KAWAI" 3,
    raw "KAWIW" 1,
    typed "PMOVA" 2 [partyId],
    typed "SLIP" 2 [boolean],
    typed "BGPDH" 5 [bank, bank, layerId, coordZ],
    typed "BGSCR" 7 [bank, bank, layerId, signedWord, signedWord],
    typed "WCLS" 2 [windowId],
    typed "WSIZW" 10 [windowId, coordX, coordY, windowWidth, windowHeight],
    -- 0x30
    typed "IFKEY" 4 [keys, shortJump],
    typed "IFKEYON" 4 [keys, shortJump],
    typed "IFKEYOFF" 4 [keys, shortJump],
    typed "UC" 2 [boolean],
    typed "PDIRA" 2 [partyId],
    typed "PTURA" 4 [partyId, speed, rotation],
    typed "WSPCL" 5 [windowId, windowNum, byte, byte],
    typed "WNUMB" 8 [bank, bank, windowId, word, word, byte],
    typed "STTIM" 6 [bank, bank, bank, bank, byte, byte, byte],
    typed "GOLDu" 6 [bank, bank, word, word],
    typed "GOLDd" 6 [bank, bank, word, word],
    typed "CHGLD" 4 [bank, bank, address, address],
    raw "HMPMAX1" 1,
    raw "HMPMAX2" 1,
    raw "MHMMX" 1,
    raw "HMPMAX3" 1,
    -- 0x40
    typed "MESSAGE" 3 [windowId, textId],
    typed "MPARA" 5 [bank, bank, windowId, windowVar, byte],
    typed "MPRA2" 6 [bank, bank, windowId, windowVar, word],
    typed "MPNAM" 2 [textId],
    undocumented "UNUSED44" 1,
    typed "MPu" 5 [bank, bank, partyId, word],
    undocumented "UNUSED46" 1,
    typed "MPd" 5 [bank, bank, partyId, word],
    typed "ASK" 7 [bank, bank, windowId, textId, byte, byte, address],
    typed "MENU" 4 [bank, bank, menu, byte],
    typed "MENU2" 2 [boolean],
    typed "BTLTB" 2 [byte],
    undocumented "UNUSED4C" 1,
    typed "HPu" 5 [bank, bank, partyId, word],
    undocumented "UNUSED4E" 1,
    typed "HPd" 5 [bank, bank, partyId, word],
    -- 0x50
    typed "WINDOW" 10 [windowId, coordX, coordY, windowWidth, windowHeight],
    typed "WMOVE" 6 [windowId, coordX, coordY],
    typed "WMODE" 4 [windowId, windowType, boolean],
    typed "WREST" 2 [windowId],
    typed "WCLSE" 2 [windowId],
    typed "WROW" 3 [windowId, byte],
    typed "GWCOL" 7 [bank, bank, bank, bank, address, address, address, address],
    typed "SWCOL" 7 [bank, bank, bank, bank, byte, color],
    typed "STITM" 5 [bank, bank, itemId, quantity],
    typed "DLITM" 5 [bank, bank, itemId, quantity],
    typed "CKITM" 5 [bank, bank, itemId, address],
    typed "SMTRA" 7 [bank, bank, bank, bank, materiaId, byte, byte, byte],
    typed "DMTRA" 8 [bank, bank, bank, bank, materiaId, byte, byte, byte, quantity],
    typed "CMTRA" 10 [bank, bank, bank, bank, bank, bank, materiaId, byte, byte, byte, unknown,
      address],
    raw "SHAKE" 8,
    raw "NOP" 1,
    -- 0x60
    typed "MAPJUMP" 10 [fieldId, coordX, coordY, polygonId, direction],
    raw "SCRLO" 2,
    raw "SCRLC" 5,
    typed "SCRLA" 6 [bank, bank, speed16, groupId, byte],
    typed "SCR2D" 6 [bank, bank, coordX, coordY],
    raw "SCRCC" 1,
    typed "SCR2DC" 9 [bank, bank, bank, bank, coordX, coordY, speed16],
    raw "SCRLW" 1,
    typed "SCR2DL" 9 [bank, bank, bank, bank, coordX, coordY, speed16],
    typed "MPDSP" 2 [boolean],
    raw "VWOFT" 7,
    typed "FADE" 9 [bank, bank, bank, bank, color, speed, byte, byte],
    raw "FADEW" 1,
    typed "IDLCK" 4 [polygonId, boolean],
    typed "LSTMP" 3 [bank, bank, address],
    typed "SCRLP" 6 [bank, bank, speed16, partyId, byte],
    -- 0x70
    typed "BATTLE" 4 [bank, bank, word],
    typed "BTLON" 2 [boolean],
    raw "BTLMD" 3,
    typed "PGTDR" 4 [bank, bank, partyId, address],
    typed "GETPC" 4 [bank, bank, partyId, address],
    typed "PXYZI" 8 [bank, bank, bank, bank, partyId, address, address, address, address],
    typed "PLUS!" 4 [bank, bank, address, byte],
    typed "PLUS2!" 5 [bank, bank, address, word],
    typed "MINUS!" 4 [bank, bank, address, byte],
    typed "MINUS2!" 5 [bank, bank, address, word],
    typed "INC!" 3 [bank, bank, address],
    typed "INC2!" 3 [bank, bank, address],
    typed "DEC!" 3 [bank, bank, address],
    typed "DEC2!" 3 [bank, bank, address],
    typed "TLKON" 2 [boolean],
    typed "RDMSD" 3 [bank, bank, byte],
    -- 0x80
    typed "SETBYTE" 4 [bank, bank, address, byte],
    typed "SETWORD" 5 [bank, bank, address, word],
    typed "BITON" 4 [bank, bank, address, byte],
    typed "BITOFF" 4 [bank, bank, address, byte],
    typed "BITXOR" 4 [bank, bank, address, byte],
    typed "PLUS" 4 [bank, bank, address, byte],
    typed "PLUS2" 5 [bank, bank, address, word],
    typed "MINUS" 4 [bank, bank, address, byte],
    typed "MINUS2" 5 [bank, bank, address, word],
    typed "MUL" 4 [bank, bank, address, byte],
    typed "MUL2" 5 [bank, bank, address, word],
    typed "DIV" 4 [bank, bank, address, byte],
    typed "DIV2" 5 [bank, bank, address, word],
    typed "MOD" 4 [bank, bank, address, byte],
    typed "MOD2" 5 [bank, bank, address, word],
    typed "AND" 4 [bank, bank, address, byte],
    -- 0x90
    typed "AND2" 5 [bank, bank, address, word],
    typed "OR" 4 [bank, bank, address, byte],
    typed "OR2" 5 [bank, bank, address, word],
    typed "XOR" 4 [bank, bank, address, byte],
    typed "XOR2" 5 [bank, bank, address, word],
    typed "INC" 3 [bank, bank, address],
    typed "INC2" 3 [bank, bank, address],
    typed "DEC" 3 [bank, bank, address],
    typed "DEC2" 3 [bank, bank, address],
    typed "RANDOM" 3 [bank, bank, address],
    typed "LBYTE" 4 [bank, bank, address, byte],
    typed "HBYTE" 5 [bank, bank, address, word],
    typed "2BYTE" 6 [bank, bank, bank, bank, address, byte, byte],
    raw "SETX" 7,
    raw "GETX" 7,
    raw "SEARCHX" 11,
    -- 0xA0
    typed "PC" 2 [characterId],
    typed "CHAR" 2 [byte],
    typed "DFANM" 3 [animationId, speed],
    typed "ANIME1" 3 [animationId, speed],
    typed "VISI" 2 [boolean],
    typed "XYZI" 11 [bank, bank, bank, bank, coordX, coordY, coordZ, polygonId],
    typed "XYI" 9 [bank, bank, bank, bank, coordX, coordY, polygonId],
    typed "XYZ" 9 [bank, bank, bank, bank, coordX, coordY, coordZ],
    typed "MOVE" 6 [bank, bank, coordX, coordY],
    typed "CMOVE" 6 [bank, bank, coordX, coordY],
    typed "MOVA" 2 [groupId],
    typed "TURA" 4 [groupId, rotation, speed],
    raw "ANIMW" 1,
    typed "FMOVE" 6 [bank, bank, coordX, coordY],
    typed "ANIME2" 3 [animationId, speed],
    typed "ANIM!1" 3 [animationId, speed],
    -- 0xB0
    typed "CANIM1" 5 [animationId, byte, byte, speed],
    typed "CANM!1" 5 [animationId, byte, byte, speed],
    typed "MSPED" 4 [bank, bank, speed16],
    typed "DIR" 3 [bank, bank, direction],
    typed "TURNGEN" 6 [bank, bank, direction, byte, speed, unknown],
    typed "TURN" 6 [bank, bank, direction, byte, speed, unknown],
    typed "DIRA" 2 [groupId],
    typed "GETDIR" 4 [bank, bank, groupId, address],
    typed "GETAXY" 5 [bank, bank, groupId, address, address],
    typed "GETAI" 4 [bank, bank, groupId, address],
    typed "ANIM!2" 3 [animationId, speed],
    typed "CANIM2" 5 [animationId, byte, byte, speed],
    typed "CANM!2" 5 [animationId, byte, byte, speed],
    typed "ASPED" 4 [bank, bank, speed16],
    undocumented "UNUSEDBE" 1,
    typed "CC" 2 [groupId],
    -- 0xC0
    typed "JUMP" 11 [bank, bank, bank, bank, coordX, coordY, polygonId, word],
    typed "AXYZI" 8 [bank, bank, bank, bank, groupId, address, address, address, address],
    typed "LADER" 15 [bank, bank, bank, bank, coordX, coordY, coordZ, polygonId, byte,
      animationId, direction, speed],
    typed "OFST" 12 [bank, bank, bank, bank, byte, coordX, coordY, coordZ, speed16],
    raw "OFSTW" 1,
    typed "TALKR" 3 [bank, bank, byte],
    typed "SLIDR" 3 [bank, bank, byte],
    typed "SOLID" 2 [boolean],
    typed "PRTYP" 2 [characterId],
    typed "PRTYM" 2 [characterId],
    typed "PRTYE" 4 [characterId, characterId, characterId],
    typed "IFPRTYQ" 3 [characterId, shortJump],
    typed "IFMEMBQ" 3 [characterId, shortJump],
    typed "MMBud" 3 [boolean, characterId],
    typed "MMBLK" 2 [characterId],
    typed "MMBUK" 2 [characterId],
    -- 0xD0
    typed "LINE" 13 [coordX, coordY, coordZ, coordX, coordY, coordZ],
    typed "LINON" 2 [boolean],
    typed "MPJPO" 2 [boolean],
    typed "SLINE" 16 [bank, bank, bank, bank, bank, bank, coordX, coordY, coordZ, coordX, coordY,
      coordZ],
    typed "SIN" 10 [bank, bank, bank, bank, word, word, word, byte],
    typed "COS" 10 [bank, bank, bank, bank, word, word, word, byte],
    typed "TLKR2" 4 [bank, bank, word],
    typed "SLDR2" 4 [bank, bank, word],
    typed "PMJMP" 3 [fieldId],
    raw "PMJMP2" 1,
    raw "AKAO2" 15,
    typed "FCFIX" 2 [boolean],
    typed "CCANM" 4 [animationId, speed, byte],
    raw "ANIMB" 1,
    raw "TURNW" 1,
    raw "MPPAL" 11,
    -- 0xE0
    typed "BGON" 4 [bank, bank, paramId, stateId],
    typed "BGOFF" 4 [bank, bank, paramId, stateId],
    typed "BGROL" 3 [bank, bank, paramId],
    typed "BGROL2" 3 [bank, bank, paramId],
    typed "BGCLR" 3 [bank, bank, paramId],
    raw "STPAL" 5,
    raw "LDPAL" 5,
    raw "CPPAL" 5,
    raw "RTPAL" 7,
    raw "ADPAL" 10,
    raw "MPPAL2" 10,
    raw "STPLS" 5,
    raw "LDPLS" 5,
    raw "CPPAL2" 8,
    raw "RTPAL2" 8,
    raw "ADPAL2" 11,
    -- 0xF0
    typed "MUSIC" 2 [musicId],
    typed "SOUND" 5 [bank, bank, soundId, byte],
    raw "AKAO" 14,
    typed "MUSVT" 2 [musicId],
    typed "MUSVM" 2 [musicId],
    typed "MULCK" 2 [boolean],
    typed "BMUSC" 2 [musicId],
    raw "CHMPH" 4,
    typed "PMVIE" 2 [movieId],
    raw "MOVIE" 1,
    typed "MVIEF" 3 [bank, bank, address],
    typed "MVCAM" 2 [boolean],
    raw "FMUSC" 2,
    raw "CMUSC" 8,
    typed "CHMST" 3 [bank, bank, address],
    raw "GAMEOVER" 1]

/-- Every byte has its row. -/
theorem size_table : table.size = 256 := by decide +kernel

/-- What is known of the id that is a byte. -/
def info (id : UInt8) : InstructionInfo :=
  have : id.toNat < table.size := by
    rw [size_table]
    exact id.toNat_lt
  table[id.toNat]

/-- The row of labels. -/
def labelInfo : InstructionInfo := typed "LABEL" 0 [.label]

/-- What is known of any id, labels included. -/
def info? (id : Nat) : Option InstructionInfo :=
  if id = labelId then some labelInfo else table[id]?

/-- The id of the first instruction with a mnemonic, of which the case is
ignored. -/
def idOf? (mnemonic : List Char) : Option UInt8 :=
  (table.findIdx? fun info =>
    info.mnemonic.toList.map Char.toUpper == mnemonic.map Char.toUpper).map UInt8.ofNat

/-- The most bytes that may follow the fixed part of instruction `0x1C`. -/
def maxExtraLength : Nat := 128

/-- The byte of instruction `0x1C` that states the length of its
payload. -/
def extraLengthOffset : Nat := 5

/-- The length of the header of a self-sized instruction: its id, its
length and its sub-instruction. -/
def kawaiHeaderLength : Nat := 3

/-- The most payload that the length byte of a self-sized instruction can
state. -/
def kawaiMaxPayload : Nat := 255 - kawaiHeaderLength

/-- Payload of the special sub-instructions. -/
def specialPayloadLength (sub : UInt8) : Nat :=
  if sub ∈ [0xF5, 0xF6, 0xF7, 0xFB, 0xFC] then 1
  else if sub ∈ [0xF8, 0xFD] then 2
  else 0

/-- Mnemonics of the special sub-instructions. -/
def specialMnemonics : List (UInt8 × String) :=
  [(0xF5, "ARROW"), (0xF6, "PNAME"), (0xF7, "GMSPD"), (0xF8, "SMSPD"), (0xF9, "FLMAT"),
    (0xFA, "FLITM"), (0xFB, "BTLCK"), (0xFC, "MVLCK"), (0xFD, "SPCNM"), (0xFE, "RSGLB"),
    (0xFF, "CLITM")]

/-- Mnemonics of the self-sized sub-instructions. -/
def kawaiMnemonics : List (UInt8 × String) :=
  [(0x00, "EYETX"), (0x01, "TRNSP"), (0x02, "AMBNT"), (0x06, "LIGHT"), (0x0A, "SBOBJ"),
    (0x0D, "SHINE"), (0xFF, "RESET")]

/-- The mnemonic of a special sub-instruction, if it has one. -/
def specialMnemonic? (sub : UInt8) : Option String := specialMnemonics.lookup sub

/-- The mnemonic of a self-sized sub-instruction, if it has one. -/
def kawaiMnemonic? (sub : UInt8) : Option String := kawaiMnemonics.lookup sub

end InstructionSet

end FieldMap
