import Wasmline.Text.Painted

/-!
# Diagnostics and how they read

A diagnostic has a severity, a code, a message and, where it is about a place in a source text, a
location. Rendered, it opens with a headline. A location adds the place below it, and a location
with its source line adds that line behind a gutter with a caret under the column:

    error[TS1128]: Declaration or statement expected.
      --> main.ts:2:3
      |
    2 |   let x;
      |   ^

The gutter is as wide as the line number. Columns count from one; column zero is shown as column one.
-/

namespace Wasmline

/-- How grave a diagnostic is. -/
inductive Severity where
  | info
  | warning
  | error
  deriving DecidableEq, Repr

namespace Severity

/-- The word a diagnostic opens with. -/
def label : Severity → String
  | info => "info"
  | warning => "warning"
  | error => "error"

/-- The style of the label and the caret. -/
def style : Severity → Text.Style
  | info => .boldBlue
  | warning => .boldYellow
  | error => .boldRed

/-- The place of a severity in the order from mildest to gravest. -/
def rank : Severity → Nat
  | info => 0
  | warning => 1
  | error => 2

end Severity

/-- A place in a source text, with the line it is on where that is to be shown. -/
structure Location where
  /-- The file's name. -/
  path : String
  /-- The line, counted from one. -/
  line : Nat
  /-- The column in bytes, counted from one. -/
  column : Nat
  /-- The source line, if it is to be shown. -/
  lineText : Option String
  deriving DecidableEq, Repr

/-- A location as `path:line:column`. -/
def Location.display (l : Location) : String :=
  l.path ++ ":" ++ toString l.line ++ ":" ++ toString l.column

/-- A message about a source text or about the program as a whole. -/
structure Diagnostic where
  severity : Severity
  code : String
  message : String
  location : Option Location
  deriving DecidableEq, Repr

namespace Diagnostic

/-- The diagnostic is an error. -/
def isError (d : Diagnostic) : Bool :=
  d.severity == .error

/-- A text of `n` spaces. -/
def spaces (n : Nat) : String :=
  String.ofList (List.replicate n ' ')

/-- The first line: severity, code and message. -/
def headline (d : Diagnostic) (colorize : Bool) : String :=
  d.severity.style.paintIf colorize d.severity.label ++ "[" ++ d.code ++ "]: " ++
    Text.Style.bold.paintIf colorize d.message

/-- The source line behind its gutter, and the caret below it. -/
def excerpt (severity : Severity) (colorize : Bool) (l : Location) (text : String) : String :=
  let number := toString l.line
  let gutter := spaces number.length
  let bar := Text.Style.boldCyan.paintIf colorize "|"
  "\n" ++ gutter ++ " " ++ bar ++
    "\n" ++ number ++ " " ++ bar ++ " " ++ text ++
    "\n" ++ gutter ++ " " ++ bar ++ " " ++ spaces (l.column - 1) ++
      severity.style.paintIf colorize "^"

/-- The place of a diagnostic, and the source line where the location has it. -/
def place (severity : Severity) (colorize : Bool) (l : Location) : String :=
  "\n" ++ spaces (toString l.line).length ++ " " ++ Text.Style.boldCyan.paintIf colorize "-->" ++
    " " ++ l.display ++
    match l.lineText with
    | some text => excerpt severity colorize l text
    | none => ""

/-- The diagnostic as it is shown, without a line end. -/
def render (d : Diagnostic) (colorize : Bool) : String :=
  d.headline colorize ++
    match d.location with
    | some l => place d.severity colorize l
    | none => ""

end Diagnostic

end Wasmline
