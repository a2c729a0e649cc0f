import FieldMap.Json.Token

/-!
# The structure of JSON text

An outline is a JSON value in which nothing has been interpreted yet:
names, numbers and quoted texts stand as they are written. It is built
from the tokens by a machine with a stack of the arrays and objects that
are open, so that no depth is too great for it.

Reading settings asks of the parts that it knows what type they have, and
asks nothing of all others.
-/

namespace FieldMap.Json

/-- **JSON text with its structure.** -/
inductive Outline where
  | bare (word : List Char)
  | quoted (written : List Char)
  | array (items : List Outline)
  | object (members : List (List Char × Outline))

namespace Outline

/-- An array or object that is open, with the parts so far in reverse. -/
inductive Frame where
  | items (done : List Outline)
  | members (done : List (List Char × Outline))
  /-- An object of which a key has been read. -/
  | member (done : List (List Char × Outline)) (key : List Char)

/-- What may come next. -/
inductive Expectation where
  | value
  /-- A value, or the end of an array that is empty so far. -/
  | valueOrEnd
  | key
  /-- A key, or the end of an object that is empty so far. -/
  | keyOrEnd
  | colon
  | commaOrEnd
  /-- Nothing: the text has its value. -/
  | nothing

/-- The state of building an outline. -/
structure Building where
  expectation : Expectation
  /-- The open arrays and objects, innermost first. -/
  stack : List Frame
  value? : Option Outline

/-- Puts a finished value where it belongs. -/
def Building.put (stack : List Frame) (value : Outline) : Option Building :=
  match stack with
  | [] => some ⟨.nothing, [], some value⟩
  | .items done :: rest => some ⟨.commaOrEnd, .items (value :: done) :: rest, none⟩
  | .member done key :: rest => some ⟨.commaOrEnd, .members ((key, value) :: done) :: rest, none⟩
  | .members _ :: _ => none

/-- What a token does where a value may stand. -/
def Building.startValue (stack : List Frame) (token : Token) : Option Building :=
  match token with
  | .bare word => put stack (.bare word)
  | .quoted written => put stack (.quoted written)
  | .openArray => some ⟨.valueOrEnd, .items [] :: stack, none⟩
  | .openObject => some ⟨.keyOrEnd, .members [] :: stack, none⟩
  | _ => none

/-- Takes a key of the innermost object. -/
def Building.startMember (stack : List Frame) (token : Token) : Option Building :=
  match token, stack with
  | .quoted key, .members done :: rest => some ⟨.colon, .member done key :: rest, none⟩
  | _, _ => none

/-- Closes the innermost array or object. -/
def Building.close (stack : List Frame) (token : Token) : Option Building :=
  match token, stack with
  | .closeArray, .items done :: rest => put rest (.array done.reverse)
  | .closeObject, .members done :: rest => put rest (.object done.reverse)
  | _, _ => none

/-- What a comma does inside an array or object. -/
def Building.separate (stack : List Frame) : Option Building :=
  match stack with
  | .items _ :: _ => some ⟨.value, stack, none⟩
  | .members _ :: _ => some ⟨.key, stack, none⟩
  | _ => none

/-- What a token does. -/
def Building.step (building : Building) (token : Token) : Option Building :=
  match building.expectation with
  | .value => startValue building.stack token
  | .valueOrEnd =>
    if token = .closeArray then close building.stack token else startValue building.stack token
  | .key => startMember building.stack token
  | .keyOrEnd =>
    if token = .closeObject then close building.stack token else startMember building.stack token
  | .colon => if token = .colon then some ⟨.value, building.stack, none⟩ else none
  | .commaOrEnd =>
    if token = .comma then separate building.stack else close building.stack token
  | .nothing => none

/-- **The outline of JSON text.** -/
def ofText (text : String) : Option Outline := do
  let tokens ← Token.scan text.toList
  let building ← tokens.foldlM Building.step ⟨.value, [], none⟩
  building.value?

/-- The truth value that an outline stands for. -/
def toBool? : Outline → Option Bool
  | bare word =>
    if word = "true".toList then some true
    else if word = "false".toList then some false
    else none
  | _ => none

/-- The text that an outline stands for. -/
def toText? : Outline → Option String
  | quoted written => (Token.unescape written).map String.ofList
  | _ => none

/-- The text that an outline stands for, or nothing if it is null. -/
def toOptionalText? : Outline → Option (Option String)
  | bare word => if word = "null".toList then some none else none
  | value => value.toText?.map some

end Outline

end FieldMap.Json
