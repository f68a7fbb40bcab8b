import Wasmline.Note
import Wasmline.Source.Line
import Wasmline.Text.Lines

/-!
# Parsed files

A source text read line by line: the imports and functions it declares, and what is wrong with it.
Lines are independent of each other, so the three lists are the parts of one list of readings. A file
in which nothing was found at all is reported as empty.
-/

namespace Wasmline

/-- An import as it is written, and the path it means. -/
structure Import where
  specifier : String
  path : String
  deriving DecidableEq, Repr

/-- A function as it is declared. -/
structure Declaration where
  name : String
  exported : Bool
  body : Expr
  /-- Where the declaration starts. -/
  location : Location
  /-- Where its body starts. -/
  bodyLocation : Location
  deriving DecidableEq, Repr

/-- What was read from one source text. -/
structure ParsedFile where
  path : String
  imports : List Import
  functions : List Declaration
  diagnostics : List Diagnostic
  deriving DecidableEq, Repr

/-- A line of a file with its number, counted from one, and what it reads as. -/
structure NumberedLine where
  number : Nat
  text : List Char
  reading : LineReading
  deriving DecidableEq, Repr

namespace NumberedLine

/-- The lines of a text, numbered and read. -/
def all (text : String) : List NumberedLine :=
  (Text.lines text.toList).mapIdx fun i raw => ⟨i + 1, raw, .ofLine raw⟩

/-- The place `offset` bytes into the line. -/
def locate (l : NumberedLine) (file : String) (offset : Nat) : Location where
  path := file
  line := l.number
  column := offset + 1
  lineText := some (String.ofList l.text)

/-- The import on the line, if it is one. -/
def import? (path : String) (l : NumberedLine) : Option Import :=
  match l.reading with
  | .imports specifier => some ⟨specifier, Path.resolveImport path specifier⟩
  | _ => none

/-- The function on the line, if it is one. -/
def function? (file : String) (l : NumberedLine) : Option Declaration :=
  match l.reading with
  | .function name exported body offset bodyOffset =>
    some ⟨name, exported, body, l.locate file offset, l.locate file bodyOffset⟩
  | _ => none

/-- What is wrong with the line, if anything is. -/
def diagnostic? (file : String) (l : NumberedLine) : Option Diagnostic :=
  match l.reading with
  | .fault finding offset => some (finding.diagnose (l.locate file offset))
  | _ => none

end NumberedLine

namespace ParsedFile

/-- The name that a file known by `path` has in messages. -/
def fileName (path : String) : String :=
  path ++ Path.sourceExtension

/-- The report on a file in which nothing was found. -/
def emptyReport (file : String) : Diagnostic :=
  (Finding.noDeclarations file).diagnose ⟨file, 1, 1, none⟩

/-- Reads the source text known by `path`. -/
def parse (path text : String) : ParsedFile :=
  let file := fileName path
  let lines := NumberedLine.all text
  let imports := lines.filterMap (NumberedLine.import? path)
  let functions := lines.filterMap (NumberedLine.function? file)
  let diagnostics := lines.filterMap (NumberedLine.diagnostic? file)
  { path, imports, functions
    diagnostics :=
      if imports.isEmpty && functions.isEmpty && diagnostics.isEmpty then [emptyReport file]
      else diagnostics }

/-- What is noted when a file has been read. -/
def note (parsed : ParsedFile) : Note where
  level := .trace
  scope := .parsing
  text := "Parsed " ++ fileName parsed.path ++
    s!": {parsed.imports.length} import(s), {parsed.functions.length} function(s)"

end ParsedFile

end Wasmline
