import Wasmline.Text.Escaped

/-!
# Notes

What the program says about its own work, apart from its results: short messages with a level and
the part of the program they come from. A note is a value like any other; who asked for a piece of
work decides whether its notes are shown.
-/

namespace Wasmline

/-- How much a note matters, from least to most. -/
inductive Level where
  | trace
  | debug
  | info
  | warn
  | error
  deriving DecidableEq, Repr

namespace Level

/-- The level's name in capitals. -/
def name : Level → String
  | trace => "TRACE"
  | debug => "DEBUG"
  | info => "INFO"
  | warn => "WARN"
  | error => "ERROR"

/-- The place of a level in the order from least to most. -/
def rank : Level → Nat
  | trace => 0
  | debug => 1
  | info => 2
  | warn => 3
  | error => 4

end Level

/-- The part of the program a note comes from. -/
inductive Scope where
  | loading
  | resolving
  | gathering
  | reporting
  | staging
  | planning
  | owning
  | driving
  | parsing
  | session
  | program
  | artifact
  | lowering
  | command
  deriving DecidableEq, Repr

/-- The name a part of the program has in log lines. -/
def Scope.label : Scope → String
  | loading => "tswasm_core::source"
  | resolving => "tswasm_core::resolver"
  | gathering => "tswasm_core::graph"
  | reporting => "tswasm_core::diagnostics"
  | staging => "tswasm_core::pipeline"
  | planning => "tswasm_core::output"
  | owning => "tswasm_core::engine"
  | driving => "tswasm_core::driver"
  | parsing => "tswasm_codegen::parser"
  | session => "tswasm_codegen::session"
  | program => "tswasm_codegen::ir"
  | artifact => "tswasm_codegen::module"
  | lowering => "tswasm_codegen::compiler"
  | command => "tswasm::compile"

/-- A message of the program about its own work. -/
structure Note where
  level : Level
  scope : Scope
  text : String
  deriving DecidableEq, Repr

/-- The note as a log line: the level, right-aligned to five characters, the scope and the text with
its controls escaped. -/
def Note.line (note : Note) : String :=
  String.ofList (List.replicate (5 - note.level.name.length) ' ') ++ note.level.name ++ " " ++
    note.scope.label ++ ": " ++ String.ofList (Text.escapeControls note.text.toList)

end Wasmline
