import FieldMap.FileSystem.Basic

/-!
# Trees of files

A `FileTree` holds files and folders as a value. Its paths are lists of
names; a folder is there if it is listed or if something is in it. The
root is the folder in which the program works. The folders above it are
there too, up to the one that is above all others, but nothing is known of
what else they hold.

Every step of a path has to start from a folder, also a step that stays
where it is: a path that ends in a slash leads to a folder or nowhere, and
no file can be written there.
-/

namespace FieldMap

/-- The names from the root of a tree down to one of its entries. A path
to a folder above the root consists of steps up alone, and one that starts
at the topmost folder has that folder as its first part. -/
abbrev TreePath := List String

namespace TreePath

/-- The step from a folder to the one that holds it. -/
def up : String := ".."

/-- The folder above all others, which holds itself. -/
def top : TreePath := ["/"]

/-- Whether a path leads to the root or to a folder that holds it. -/
def isAncestor (path : TreePath) : Bool := path.all (· == up) || path == top

/-- The folder that holds the entry at a path. -/
def parent (path : TreePath) : TreePath :=
  if path = top then top
  else if path.all (· == up) then path ++ [up]
  else path.dropLast

end TreePath

/-- **Files and folders.** -/
structure FileTree where
  files : List (TreePath × Bytes)
  /-- Folders that need not hold anything. -/
  folders : List TreePath
deriving DecidableEq

namespace FileTree

/-- The parts of a path between its slashes, behind the part `current`,
which is kept in reverse. -/
def partsFrom (current : List Char) : List Char → List String
  | [] => [String.ofList current.reverse]
  | c :: cs =>
    if c = '/' then String.ofList current.reverse :: partsFrom [] cs
    else partsFrom (c :: current) cs

/-- The parts of a path between its slashes. -/
def parts (path : String) : List String := partsFrom [] path.toList

/-- The contents of a file. -/
def file? (tree : FileTree) (path : TreePath) : Option Bytes := tree.files.lookup path

/-- Whether there is a folder at a path. -/
def isFolder (tree : FileTree) (path : TreePath) : Bool :=
  path.isAncestor || tree.folders.any path.isPrefixOf ||
    tree.files.any fun file => path.isPrefixOf file.1 && path.length < file.1.length

/-- What is at a path. -/
def entry? (tree : FileTree) (path : TreePath) : Option EntryKind :=
  if (tree.file? path).isSome then some .file
  else if tree.isFolder path then some .folder
  else none

/-- The most bytes that a name may have. -/
def nameLimit : Nat := 255

/-- Follows the parts of a path from a place on. -/
def follow (tree : FileTree) (place : TreePath) : List String → Except StorageFault TreePath
  | [] => .ok place
  | part :: rest =>
    match tree.entry? place with
    | none => .error .notFound
    | some .file => .error .notAFolder
    | some .folder =>
      if part = "" ∨ part = "." then follow tree place rest
      else if part = TreePath.up then follow tree place.parent rest
      else if nameLimit < part.utf8ByteSize then .error .nameTooLong
      else follow tree (place ++ [part]) rest

/-- Where a path starts, and the parts that lead on from there. The empty
path starts nowhere, and one that opens with a slash starts at the topmost
folder. -/
def start? (path : String) : Option (TreePath × List String) :=
  match parts path with
  | [""] => none
  | "" :: rest => some (TreePath.top, rest)
  | steps => some ([], steps)

/-- **The place to which a path leads.** Nothing need be there, but it is
in a folder. -/
def locate (tree : FileTree) (path : String) : Except StorageFault TreePath :=
  match start? path with
  | none => .error .notFound
  | some (place, steps) => tree.follow place steps

/-- What a path leads to. -/
def kind? (tree : FileTree) (path : String) : Option EntryKind :=
  match tree.locate path with
  | .ok place => tree.entry? place
  | .error _ => none

/-- The contents of the file to which a path leads. -/
def read (tree : FileTree) (path : String) : Except StorageFault Bytes := do
  let place ← tree.locate path
  match tree.file? place, tree.isFolder place with
  | some bytes, _ => .ok bytes
  | none, true => .error .isAFolder
  | none, false => .error .notFound

/-- The parts of a path without the empty ones that slashes at its end
leave. -/
def withoutSlashes (steps : List String) : List String :=
  (steps.reverse.dropWhile fun part => part == "").reverse

/-- **The tree with other contents in the file to which a path leads**,
which is created if it is not there. A path that ends in a slash stands
for a folder, whatever is there. -/
def write (tree : FileTree) (path : String) (bytes : Bytes) : Except StorageFault FileTree :=
  match start? path with
  | none => .error .notFound
  | some (start, steps) => do
    let place ← tree.follow start (withoutSlashes steps)
    if withoutSlashes steps ≠ steps then .error .isAFolder
    else if (tree.file? place).isNone && tree.isFolder place then .error .isAFolder
    else
      .ok { tree with files := (place, bytes) :: tree.files.filter fun file => file.1 != place }

/-- The files below a folder, in the order of their paths, name by
name. -/
def filesBelow (tree : FileTree) (path : String) : Except StorageFault (List FoundFile) := do
  let place ← tree.locate path
  let paths := (tree.files.map Prod.fst).filter place.isPrefixOf
  let ordered := paths.mergeSort fun a b => !decide (b < a)
  return ordered.map fun names =>
    ⟨names.getLast?.getD "", path ++ "/" ++ "/".intercalate (names.drop place.length)⟩

/-- **The operations on a tree of files**, which may change it. -/
def access : FileSystem (StateM FileTree) where
  read path := return (← get).read path
  write path bytes := do
    match (← get).write path bytes with
    | .ok tree =>
      set tree
      return .ok ()
    | .error fault => return .error fault
  kind? path := return (← get).kind? path
  filesBelow path := return (← get).filesBelow path

end FileTree

end FieldMap
