import Wasmline.Run.Basic

/-!
# Trees of files

A tree of directories and files, and the place in it that relative paths start from. A path is walked
one segment at a time: an empty segment and `.` stay, `..` goes up, and any of them needs a directory
to stand in. The top of the tree is the root of all paths: a path with a slash in front is walked from
there, and going up from the top stays there.

Reading a directory and writing to one fail, as does writing to a name with a slash behind it.
Names and paths have a greatest length.
-/

namespace Wasmline

/-- What stands at a place of a tree. -/
inductive Entry where
  | file (bytes : List UInt8)
  | directory
  deriving DecidableEq, Repr

/-- A place in a tree: the names that lead to it, the innermost first. The top is the empty list. -/
abbrev Place := List String

/-- Directories and files by their places, and the place that relative paths start from. -/
structure FileTree where
  entries : List (Place × Entry)
  here : Place
  deriving DecidableEq, Repr

namespace FileTree

/-- What stands at a place. The top is a directory. -/
def entry? (tree : FileTree) (place : Place) : Option Entry :=
  if place.isEmpty then some .directory else tree.entries.lookup place

/-- A directory stands at a place. -/
def isDirectory (tree : FileTree) (place : Place) : Bool :=
  tree.entry? place == some .directory

/-- The tree with something else at a place. -/
def set (tree : FileTree) (place : Place) (entry : Entry) : FileTree :=
  { tree with entries := (place, entry) :: tree.entries.filter fun e => e.1 ≠ place }

/-- The most bytes that a name may have. -/
def nameLimit : Nat := 255

/-- The most bytes that a path may have. -/
def pathLimit : Nat := 4095

/-- A name that is too long to stand in a directory. -/
def isTooLong (name : String) : Bool :=
  nameLimit < Text.utf8Size name.toList

/-- The segments of a path. -/
def segments (path : String) : List String :=
  (Path.segments path.toList).map String.ofList

/-- Why a path cannot be walked at all, if that is so. -/
def pathFault? (path : String) : Option IoFailure :=
  if path.toList.contains '\x00' then some .nameWithNul
  else if pathLimit < Text.utf8Size path.toList then some .nameTooLong
  else none

/-- The place that a path is walked from. -/
def origin (tree : FileTree) (path : String) : Place :=
  if path.toList.head? == some '/' then [] else tree.here

/-- Where a walk along segments ends. -/
def walk (tree : FileTree) (place : Place) : List String → Except IoFailure Place
  | [] => .ok place
  | name :: rest =>
    if !tree.isDirectory place then .error .notADirectory
    else if name = "" ∨ name = "." then tree.walk place rest
    else if name = ".." then tree.walk place.tail rest
    else if isTooLong name then .error .nameTooLong
    else if (tree.entry? (name :: place)).isNone then .error .notFound
    else tree.walk (name :: place) rest

/-- The bytes of the file at a path. -/
def read (tree : FileTree) (path : String) : Except IoFailure (List UInt8) := do
  if let some failure := pathFault? path then
    throw failure
  match tree.entry? (← tree.walk (tree.origin path) (segments path)) with
  | some (.file bytes) => return bytes
  | some .directory => throw .isADirectory
  | none => throw .notFound

/-- The segments of a path up to its last name, that name, and whether a slash stands behind it. -/
def splitLast (path : String) : List String × String × Bool :=
  let parts := segments path
  let named := (parts.reverse.dropWhile String.isEmpty).reverse
  (named.dropLast, named.getLast?.getD "", named.length < parts.length)

/-- The tree with a file of these bytes at a path. -/
def write (tree : FileTree) (path : String) (bytes : List UInt8) : Except IoFailure FileTree := do
  if let some failure := pathFault? path then
    throw failure
  let (parents, name, slash) := splitLast path
  let place ← tree.walk (tree.origin path) parents
  if !tree.isDirectory place then
    throw .notADirectory
  if name == "" || name == "." || name == ".." || slash then
    throw .isADirectory
  if isTooLong name then
    throw .nameTooLong
  if tree.isDirectory (name :: place) then
    throw .isADirectory
  return tree.set (name :: place) (.file bytes)

/-- The place that a path means when all its names are taken to be directories. -/
def placeOf (tree : FileTree) (path : String) : Place :=
  (segments path).foldl (fun place name =>
    if name = "" ∨ name = "." then place
    else if name = ".." then place.tail
    else name :: place) (tree.origin path)

/-- The tree with every place on the way to a place a directory, unless something stands there. -/
def withParents (tree : FileTree) : Place → FileTree
  | [] => tree
  | name :: outer =>
    let tree := tree.withParents outer
    if (tree.entry? (name :: outer)).isSome then tree else tree.set (name :: outer) .directory

/-- The tree with an entry put at a path, and directories on the way to it. -/
def add (tree : FileTree) (path : String) (entry : Entry) : FileTree :=
  let place := tree.placeOf path
  (tree.withParents place.tail).set place entry

/-- A tree with nothing but an empty directory to start from. -/
def startingIn (place : Place) : FileTree :=
  withParents ⟨[], place⟩ place

/-- Two lists without the part that they start with alike. -/
def dropCommon : List String → List String → List String × List String
  | a :: as, b :: bs => if a = b then dropCommon as bs else (a :: as, b :: bs)
  | as, bs => (as, bs)

/-- The path of a place from where relative paths start. -/
def pathOf (tree : FileTree) (place : Place) : String :=
  let (up, down) := dropCommon tree.here.reverse place.reverse
  "/".intercalate (up.map (fun _ => "..") ++ down)

/-- The files of a tree that another does not have in the same form, by their paths. -/
def changed (before after : FileTree) : List (String × List UInt8) :=
  after.entries.filterMap fun e =>
    match e.2 with
    | .file bytes =>
      if before.entry? e.1 = some (.file bytes) then none else some (after.pathOf e.1, bytes)
    | .directory => none

/-- The tree after outputs have been written to it. An output that cannot be written is left out. -/
def apply (tree : FileTree) (writes : List Write) : FileTree :=
  writes.foldl (fun tree w =>
    match w.destination with
    | .stdout => tree
    | .file path =>
      match tree.write path w.bytes with
      | .ok tree => tree
      | .error _ => tree) tree

/-- Reads source files from a tree. -/
def loader (tree : FileTree) : Loader := fun name =>
  match tree.read name with
  | .error cause => .unreadable cause
  | .ok bytes =>
    match Text.ofUtf8? bytes with
    | some text => .text text
    | none => .unreadable .notUtf8

/-- Writes outputs to a tree; standard output always takes them. -/
def sink (tree : FileTree) : Sink := fun written write =>
  match write.destination with
  | .stdout => none
  | .file path =>
    match (tree.apply written).write path write.bytes with
    | .ok _ => none
    | .error cause => some cause

end FileTree

end Wasmline
