import FieldMap.Text.Number

/-!
# JSON

The structured form in which results are printed for other programs. The
members of an object keep the order in which they are given, and numbers
are integers.

There are two layouts. `Json.compact` puts a value on one line without
blanks; `Json.pretty` puts every item and every member on a line of its
own, indented by two blanks for each level.
-/

namespace FieldMap

/-- **A JSON value.** -/
inductive Json where
  | null
  | bool (value : Bool)
  | number (value : Int)
  | string (value : String)
  | array (items : List Json)
  | object (members : List (String × Json))

namespace Json

open FieldMap.Text

/-- A natural number as a JSON value. -/
def nat (n : Nat) : Json := number n

/-- A value that may be missing. -/
def optional {α : Type} (f : α → Json) : Option α → Json
  | none => null
  | some a => f a

/-- A character inside a quoted text: quotes, backslashes and controls are
escaped, all else stands for itself. -/
def escape (c : Char) : String :=
  if c = '"' then "\\\""
  else if c = '\\' then "\\\\"
  else if c = '\n' then "\\n"
  else if c = '\r' then "\\r"
  else if c = '\t' then "\\t"
  else if c = '\x08' then "\\b"
  else if c = '\x0c' then "\\f"
  else if c < ' ' then "\\u" ++ padLeft 4 '0' (hexDigits c.toNat)
  else String.singleton c

/-- A text in quotes. -/
def quote (s : String) : String := "\"" ++ String.join (s.toList.map escape) ++ "\""

/-- The text of a value without parts. -/
def scalar : Json → String
  | bool true => "true"
  | bool false => "false"
  | number n => signedDecimal n
  | string s => quote s
  | _ => "null"

mutual

/-- The text of a value on one line, behind the text `out`. -/
def compactOnto (out : String) : Json → String
  | array items => compactItems (out ++ "[") items ++ "]"
  | object members => compactMembers (out ++ "\x7b") members ++ "\x7d"
  | value => out ++ scalar value

/-- The texts of items behind `out`, with commas between them. -/
def compactItems (out : String) : List Json → String
  | [] => out
  | [item] => compactOnto out item
  | item :: rest => compactItems (compactOnto out item ++ ",") rest

/-- The texts of members behind `out`, with commas between them. -/
def compactMembers (out : String) : List (String × Json) → String
  | [] => out
  | [(key, value)] => compactOnto (out ++ quote key ++ ":") value
  | (key, value) :: rest => compactMembers (compactOnto (out ++ quote key ++ ":") value ++ ",") rest

end

/-- **The text of a value on one line.** -/
def compact (value : Json) : String := compactOnto "" value

/-- A new line at an indentation level. -/
def newLine (level : Nat) : String := "\n" ++ String.ofList (List.replicate (2 * level) ' ')

mutual

/-- The text of a value over several lines, behind the text `out`; its
parts go one level further in. -/
def prettyOnto (out : String) (level : Nat) : Json → String
  | array [] => out ++ "[]"
  | array (item :: rest) =>
    prettyItems (out ++ "[" ++ newLine (level + 1)) (level + 1) (item :: rest) ++ newLine level ++
      "]"
  | object [] => out ++ "\x7b\x7d"
  | object (member :: rest) =>
    prettyMembers (out ++ "\x7b" ++ newLine (level + 1)) (level + 1) (member :: rest) ++
      newLine level ++ "\x7d"
  | value => out ++ scalar value

/-- The texts of items behind `out`, each on a line of its own. -/
def prettyItems (out : String) (level : Nat) : List Json → String
  | [] => out
  | [item] => prettyOnto out level item
  | item :: rest => prettyItems (prettyOnto out level item ++ "," ++ newLine level) level rest

/-- The texts of members behind `out`, each on a line of its own. -/
def prettyMembers (out : String) (level : Nat) : List (String × Json) → String
  | [] => out
  | [(key, value)] => prettyOnto (out ++ quote key ++ ": ") level value
  | (key, value) :: rest =>
    prettyMembers (prettyOnto (out ++ quote key ++ ": ") level value ++ "," ++ newLine level) level
      rest

end

/-- **The text of a value over several lines.** -/
def pretty (value : Json) : String := prettyOnto "" 0 value

end Json

end FieldMap
