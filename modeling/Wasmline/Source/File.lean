/-!
# Source files

A source file is a text under the path it is known by, and remembers whether it was named as the
entry of a run or found through an import.
-/

namespace Wasmline

/-- How a source file came to be read. -/
inductive Origin where
  | entry
  | imported
  deriving DecidableEq, Repr

/-- What a file of this origin is called in messages. -/
def Origin.display : Origin → String
  | entry => "File"
  | imported => "Imported file"

/-- A source text, the path it is known by and how it came to be read. -/
structure SourceFile where
  path : String
  text : String
  origin : Origin
  deriving DecidableEq, Repr

/-- The file was named as the entry. -/
def SourceFile.isEntry (file : SourceFile) : Bool :=
  file.origin == .entry

end Wasmline
