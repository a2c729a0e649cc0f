import FieldMap.Script.Operand

/-!
# Listings

A listing is the text of a script: one instruction a line, its mnemonic
first and its arguments behind it. What can be wrong with a line is a
`ListingFault`; a `ListingError` is a fault and the number of its line,
counted from one.

`readInteger` is the form of a number in a listing: commas behind it are
ignored, a minus sign may stand in front, and `0x` announces base sixteen.
The digits may bring a sign of their own.
-/

namespace FieldMap

namespace Listing

open FieldMap.Text

-- powers of numbers are those of the core library, whatever else is imported
attribute [local instance (high)] instPowNat

/-- Why a token is no number. -/
inductive IntegerFault where
  | empty
  | invalidDigit
  | tooLarge
  | tooSmall
deriving DecidableEq, Repr

/-- The wording of a fault in a number. -/
def IntegerFault.message : IntegerFault → String
  | .empty => "cannot parse integer from empty string"
  | .invalidDigit => "invalid digit found in string"
  | .tooLarge => "number too large to fit in target type"
  | .tooSmall => "number too small to fit in target type"

/-- What the number of an argument is for. -/
inductive ArgumentRole where
  | labelNumber
  | subInstruction
  | byte
  | operand (kind : OperandKind)
deriving DecidableEq, Repr

/-- The name of a role in messages. -/
def ArgumentRole.name : ArgumentRole → String
  | .labelNumber => "label"
  | .subInstruction => "sub-opcode"
  | .byte => "byte"
  | .operand kind => kind.name

/-- **What can be wrong with a line.** -/
inductive ListingFault where
  | unknownMnemonic (mnemonic : String)
  | argumentCount (mnemonic : String) (expected got : Nat)
  | badInteger (token : String) (fault : IntegerFault)
  | outOfRange (token : String) (role : ArgumentRole)
  /-- The line is well formed, but there is no such instruction. -/
  | codec (error : CodecError)
deriving DecidableEq, Repr

/-- **A fault and its line**, counted from one. -/
structure ListingError where
  line : Nat
  fault : ListingFault
deriving DecidableEq, Repr

/-- The wording of an error in a listing. -/
def ListingError.message (e : ListingError) : String :=
  match e.fault with
  | .unknownMnemonic mnemonic => "unknown opcode '" ++ mnemonic ++ "' on line " ++ decimal e.line
  | .argumentCount mnemonic expected got =>
    "wrong argument count for " ++ mnemonic ++ " on line " ++ decimal e.line ++ ": expected " ++
      decimal expected ++ ", got " ++ decimal got
  | .badInteger token _ => "failed to parse integer '" ++ token ++ "' on line " ++ decimal e.line
  | .outOfRange token role =>
    "value '" ++ token ++ "' on line " ++ decimal e.line ++ " is out of range for " ++ role.name
  | .codec error => "line " ++ decimal e.line ++ ": " ++ error.message

/-- The errors below an error in a listing, for a full account of what
went wrong. -/
def ListingError.causes (e : ListingError) : List String :=
  match e.fault with
  | .badInteger _ fault => [fault.message]
  | .codec error => [error.message]
  | _ => []

/-! ## Numbers -/

/-- The value of a digit in a base up to sixteen. -/
def digitValue? (base : Nat) (c : Char) : Option Nat :=
  let value? :=
    if '0' ≤ c ∧ c ≤ '9' then some (c.toNat - '0'.toNat)
    else if 'a' ≤ c ∧ c ≤ 'f' then some (c.toNat - 'a'.toNat + 10)
    else if 'A' ≤ c ∧ c ≤ 'F' then some (c.toNat - 'A'.toNat + 10)
    else none
  value?.filter (· < base)

/-- Reads digits on to the number `n`, which must not pass a limit. -/
def readDigits (base limit : Nat) (overflow : IntegerFault) (n : Nat) :
    List Char → Except IntegerFault Nat
  | [] => .ok n
  | c :: cs =>
    match digitValue? base c with
    | none => .error .invalidDigit
    | some digit =>
      if n * base + digit ≤ limit then readDigits base limit overflow (n * base + digit) cs
      else .error overflow

/-- Reads digits that may have a sign, as a 64-bit number. -/
def readSigned (base : Nat) : List Char → Except IntegerFault Int
  | [] => .error .empty
  | ['+'] | ['-'] => .error .invalidDigit
  | '-' :: cs => (readDigits base (2 ^ (63 : Nat)) .tooSmall 0 cs).map fun n => -(n : Int)
  | '+' :: cs => (readDigits base (2 ^ (63 : Nat) - 1) .tooLarge 0 cs).map Int.ofNat
  | cs => (readDigits base (2 ^ (63 : Nat) - 1) .tooLarge 0 cs).map Int.ofNat

/-- Reads digits in the base that their mark announces. -/
def readUnsigned : List Char → Except IntegerFault Int
  | '0' :: 'x' :: cs | '0' :: 'X' :: cs => readSigned 16 cs
  | cs => readSigned 10 cs

/-- A token without the commas behind it. -/
def dropCommas (token : List Char) : List Char :=
  (token.reverse.dropWhile (· == ',')).reverse

/-- **The number that a token denotes.** All of them are 64-bit numbers but one: the digits
may be the least of these numbers, with a sign of their own, and a minus sign in front of
them leads out of 64 bits, where negation is not defined (`--9223372036854775808`). Here
it gives 2^63, which is too large for any argument. -/
def readInteger (token : List Char) : Except ListingFault Int :=
  let token := dropCommas token
  let value := match token with
    | '-' :: cs => (readUnsigned cs).map Int.neg
    | cs => readUnsigned cs
  value.mapError fun fault => .badInteger (String.ofList token) fault

end Listing

end FieldMap
