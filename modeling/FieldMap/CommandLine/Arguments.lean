/-!
# Arguments

A call names a command and gives it flags, options with a value, and at
most one path. The flags that hold for all commands may stand before the
command as well as behind it. A value stands in an argument of its own or
behind an equals sign, and behind a double dash every argument is a path.

A call that does not have this form is refused as a whole, and nothing is
done.
-/

namespace FieldMap.CommandLine

-- powers of numbers are those of the core library, whatever else is imported
attribute [local instance (high)] instPowNat

/-- The flags that hold for all commands. -/
structure GlobalFlags where
  /-- Field files are not compressed. -/
  uncompressed : Bool
  /-- Print JSON. -/
  json : Bool
deriving DecidableEq, Repr

/-- How the scripts of a field are listed. -/
structure DumpOptions where
  /-- Only the scripts of one entity. -/
  entity : Option Nat
  /-- Leave distances in jumps. -/
  rawJumps : Bool
  /-- Print the dialog texts too. -/
  texts : Bool
deriving DecidableEq, Repr

/-- What is verified, and how. -/
structure VerifyOptions where
  input : Option String
  /-- A file with settings. -/
  config : Option String
  filter : Option String
  skipBackgrounds : Bool
deriving DecidableEq, Repr

/-- **A command.** -/
inductive Command where
  | dump (field : String) (options : DumpOptions)
  | encounter (field : String)
  | background (field : String)
  | assemble (listing output : String) (rawJumps : Bool)
  | verify (options : VerifyOptions)
deriving DecidableEq, Repr

/-- **A call of the program.** -/
structure Call where
  flags : GlobalFlags
  command : Command
deriving DecidableEq, Repr

/-- Arguments by their form. -/
structure Sorted where
  flags : List String
  options : List (String × String)
  paths : List String
deriving DecidableEq, Repr

namespace Sorted

/-- No arguments. -/
def empty : Sorted := ⟨[], [], []⟩

/-- Whether a flag was given. -/
def has (sorted : Sorted) (name : String) : Bool := sorted.flags.contains name

/-- The value of an option, if it was given. -/
def value? (sorted : Sorted) (name : String) : Option String := sorted.options.lookup name

/-- Adds a flag, which must not be given twice. -/
def addFlag (sorted : Sorted) (name : String) : Option Sorted :=
  if sorted.has name then none else some { sorted with flags := name :: sorted.flags }

/-- Adds an option, which must not be given twice. -/
def addOption (sorted : Sorted) (name value : String) : Option Sorted :=
  if (sorted.value? name).isSome then none
  else some { sorted with options := (name, value) :: sorted.options }

/-- Adds paths. -/
def addPaths (sorted : Sorted) (paths : List String) : Sorted :=
  { sorted with paths := sorted.paths ++ paths }

end Sorted

/-- The name of an argument that starts with two dashes, and the value
behind its equals sign. -/
def splitOption (argument : String) : String × Option String :=
  let cs := argument.toList
  (String.ofList (cs.takeWhile (· != '=')),
    match cs.dropWhile (· != '=') with
    | [] => none
    | _ :: value => some (String.ofList value))

/-- Whether an argument is a flag or an option by its form. A single dash
is a value. -/
def isDashed (argument : String) : Bool :=
  match argument.toList with
  | ['-'] => false
  | '-' :: _ => true
  | _ => false

/-- Sorts arguments, given the names of the flags and of the options. -/
def sortArguments (flags options : List String) (sorted : Sorted) : List String → Option Sorted
  | [] => some sorted
  | argument :: rest =>
    if argument = "--" then some (sorted.addPaths rest)
    else if !isDashed argument then sortArguments flags options (sorted.addPaths [argument]) rest
    else
      match splitOption argument with
      | (name, none) =>
        if flags.contains name then
          (sorted.addFlag name).bind fun sorted => sortArguments flags options sorted rest
        else if options.contains name then
          match rest with
          | value :: rest =>
            if isDashed value then none
            else (sorted.addOption name value).bind fun sorted =>
              sortArguments flags options sorted rest
          | [] => none
        else none
      | (name, some value) =>
        if options.contains name then
          (sorted.addOption name value).bind fun sorted => sortArguments flags options sorted rest
        else none

/-- The names of the flags that hold for all commands. -/
def globalNames : List String := ["--uncompressed", "--json"]

/-- A path must not be empty. -/
def path? (text : String) : Option String := if text.isEmpty then none else some text

/-- The only path among the arguments. -/
def onlyPath? (sorted : Sorted) : Option String :=
  match sorted.paths with
  | [text] => path? text
  | _ => none

/-- A natural number below `2 ^ 64`, which may have a plus sign. -/
def number? (text : String) : Option Nat :=
  let digits := match text.toList with
    | '+' :: cs => cs
    | cs => cs
  if digits.isEmpty || !digits.all Char.isDigit then none
  else
    let n := digits.foldl (fun n c => n * 10 + (c.toNat - '0'.toNat)) 0
    if n < 2 ^ (64 : Nat) then some n else none

/-- Reads an optional value, which has to be good if it is given. -/
def optional? {α : Type} (read : String → Option α) : Option String → Option (Option α)
  | none => some none
  | some text => (read text).map some

/-- The command with a name, from its sorted arguments. -/
def commandOf (name : String) (sorted : Sorted) : Option Command :=
  if name = "dump" then do
    let field ← onlyPath? sorted
    let entity ← optional? number? (sorted.value? "--entity")
    return .dump field ⟨entity, sorted.has "--raw-jumps", sorted.has "--texts"⟩
  else if name = "encounter" then (onlyPath? sorted).map .encounter
  else if name = "background" then (onlyPath? sorted).map .background
  else if name = "asm" then do
    let listing ← onlyPath? sorted
    let output ← (sorted.value? "--output").bind path?
    return .assemble listing output (sorted.has "--raw-jumps")
  else if name = "verify" then do
    let config ← optional? path? (sorted.value? "--config")
    let input ← if sorted.paths.isEmpty then some none else (onlyPath? sorted).map some
    if input.isNone && config.isNone then none
    else return .verify ⟨input, config, sorted.value? "--filter", sorted.has "--skip-backgrounds"⟩
  else none

/-- The names of the flags and of the options of a command. -/
def namesOf (name : String) : List String × List String :=
  if name = "dump" then (["--raw-jumps", "--texts"], ["--entity"])
  else if name = "asm" then (["--raw-jumps"], ["--output"])
  else if name = "verify" then (["--skip-backgrounds"], ["--config", "--filter"])
  else ([], [])

/-- Reads a call behind the flags that were `seen` before the command. -/
def parseFrom (seen : Sorted) : List String → Option Call
  | [] => none
  | argument :: rest =>
    if globalNames.contains argument then
      (seen.addFlag argument).bind fun seen => parseFrom seen rest
    else do
      let (flags, options) := namesOf argument
      let sorted ← sortArguments (globalNames ++ flags) options .empty rest
      let command ← commandOf argument sorted
      let given (name : String) : Bool := seen.has name || sorted.has name
      return ⟨⟨given "--uncompressed", given "--json"⟩, command⟩

/-- **Reads a call from its arguments**, if they have the right form. -/
def parse (arguments : List String) : Option Call := parseFrom .empty arguments

end FieldMap.CommandLine
