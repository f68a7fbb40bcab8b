import Wasmline.Engine.Basic
import Wasmline.Text.Utf8

/-!
# Scripted engines

An engine whose answers are laid down in advance: which files import which, what is reported before
and after compiling, whether the artifact is valid and which of its views fail. It reads no source
text, so a run with it shows what the run itself does.
-/

namespace Wasmline

/-- What a scripted engine answers. -/
structure Script where
  /-- The paths that the file of a path imports. -/
  imports : List (String × List String)
  /-- An import is asked for only the first time it is met. -/
  dedupe : Bool
  parseDiagnostics : List Diagnostic
  compileDiagnostics : List Diagnostic
  valid : Bool
  /-- The views that fail, with the message they fail with. -/
  broken : List (OutputFormat × String)
  /-- What a reported diagnostic starts with, in place of the usual form. -/
  label : Option String

namespace Script

/-- The state of a scripted session. -/
structure State where
  requested : List String
  pending : List String
  waiting : List Diagnostic

/-- An import is met. -/
def request (script : Script) (s : State) (path : String) : State :=
  { s with
    requested := if path ∈ s.requested then s.requested else path :: s.requested
    pending := if path ∈ s.requested ∧ script.dedupe then s.pending else s.pending ++ [path] }

/-- A file arrives. -/
def arrive (script : Script) (s : State) (path : String) : State :=
  ((script.imports.lookup path).getD []).foldl script.request s

/-- A view that works. -/
def viewText : OutputFormat → String
  | .binary => "BINARY"
  | .text => "TEXT"
  | .asmjs => "ASMJS"

/-- A format as a failing view names it. -/
def viewName : OutputFormat → String
  | .binary => "binary"
  | .text => "text"
  | .asmjs => "asmjs"

/-- The engine that follows a script. -/
def engine (script : Script) : Engine where
  Session := State
  Artifact := Unit
  start entry := (script.arrive ⟨[entry.path], [], script.parseDiagnostics⟩ entry.path, [])
  nextImport s :=
    match s.pending with
    | [] => (none, s)
    | path :: rest => (some path, { s with pending := rest })
  supply s file := (script.arrive s file.path, [])
  waiting := State.waiting
  keepWaiting s rest := { s with waiting := rest }
  format d colorize :=
    match script.label with
    | some label => label ++ toString colorize ++ ":" ++ d.code
    | none => d.render colorize
  compile s _ := ((), { s with waiting := s.waiting ++ script.compileDiagnostics }, [])
  validate _ := (script.valid, [])
  runPasses a _ := (a, [])
  optimize a := (a, [])
  view _ format :=
    match script.broken.lookup format with
    | some message => .error (.emit (viewName format) message)
    | none => .ok (Text.utf8 (viewText format).toList)
  dispose _ := []

end Script

end Wasmline
