import Wasmline.Note

/-!
# Planning outputs

A program can be written in three formats, each to a file or to standard output. Every format may be
asked for by a path of its own; one further path, whose format is told by its ending, goes to a format
that has none yet. If nothing is asked for, the text form goes to standard output. An empty path
stands for standard output.
-/

namespace Wasmline

/-- A form in which a program is written. -/
inductive OutputFormat where
  | binary
  | text
  | asmjs
  deriving DecidableEq, Repr

/-- The format's name in messages. -/
def OutputFormat.display : OutputFormat → String
  | binary => "binary"
  | text => "text"
  | asmjs => "asm.js"

/-- Where an output goes. -/
inductive Destination where
  | file (path : String)
  | stdout
  deriving DecidableEq, Repr

/-- The destination that a path stands for. -/
def Destination.ofPath (path : String) : Destination :=
  if path.isEmpty then .stdout else .file path

/-- One output: a format and where it goes. -/
structure Emission where
  format : OutputFormat
  destination : Destination
  deriving DecidableEq, Repr

/-- The outputs that are asked for. -/
structure Outputs where
  /-- A path whose ending tells the format. -/
  outFile : Option String
  binaryFile : Option String
  textFile : Option String
  asmjsFile : Option String
  deriving DecidableEq, Repr

namespace Outputs

/-- Nothing is asked for. -/
def isEmpty (o : Outputs) : Bool :=
  o.outFile.isNone && o.binaryFile.isNone && o.textFile.isNone && o.asmjsFile.isNone

/-- The path ends in `tail`. -/
def endsIn (path tail : String) : Bool :=
  tail.toList.isSuffixOf path.toList

/-- The format that the path without a format of its own goes to: the one its ending tells, or else
binary, as long as that format has no path yet. -/
def outFormat? (o : Outputs) (path : String) : Option OutputFormat :=
  if (endsIn path ".wast" || endsIn path ".wat") && o.textFile.isNone then some .text
  else if endsIn path ".js" && o.asmjsFile.isNone then some .asmjs
  else if o.binaryFile.isNone then some .binary
  else none

/-- The path that a format is asked for with on its own account. -/
def ownPath (o : Outputs) : OutputFormat → Option String
  | .binary => o.binaryFile
  | .text => o.textFile
  | .asmjs => o.asmjsFile

/-- The path that a format is written to. -/
def path? (o : Outputs) (format : OutputFormat) : Option String :=
  match o.ownPath format, o.outFile with
  | some path, _ => some path
  | none, some path => if o.outFormat? path = some format then some path else none
  | none, none => none

/-- The outputs that paths are given for, in the order binary, text, asm.js. -/
def requested (o : Outputs) : List Emission :=
  [OutputFormat.binary, .text, .asmjs].filterMap fun format =>
    (o.path? format).map fun path => ⟨format, .ofPath path⟩

/-- The outputs of a run, in the order in which they are written. -/
def plan (o : Outputs) : List Emission :=
  match o.requested with
  | [] => [⟨.text, .stdout⟩]
  | emissions => emissions

/-- What is noted when outputs are planned. -/
def planNotes (o : Outputs) : List Note :=
  match o.outFile with
  | some path =>
    if (o.outFormat? path).isNone then
      [⟨.warn, .planning, "Ignoring --outFile '" ++ path ++
        "': every matching format already has a destination"⟩]
    else []
  | none => []

end Outputs

end Wasmline
