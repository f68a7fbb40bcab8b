import Wasmline.Config
import Wasmline.Failure

/-!
# Engines

A run does not read source texts or write code itself: it drives an engine. An engine opens a session
on an entry file, says which files it needs next, takes them, and compiles what it was given into an
artifact; both the session and the artifact are the engine's own.

A session lets its diagnostics be seen as a queue, oldest first. Imports are asked for one at a time,
because each file that is supplied may add to them; the engine decides which imports it still needs.

Each operation gives, besides its result, the notes that it leaves.
-/

namespace Wasmline

/-- What compiles source files. -/
structure Engine where
  /-- The state between opening an entry file and compiling. -/
  Session : Type
  /-- A compiled program. -/
  Artifact : Type
  /-- Opens a session on an entry file. -/
  start : SourceFile → Session × List Note
  /-- Takes the next path that is still needed, if there is one. -/
  nextImport : Session → Option String × Session
  /-- Hands over a file that was asked for. -/
  supply : Session → SourceFile → Session × List Note
  /-- The diagnostics that wait to be reported, oldest first. -/
  waiting : Session → List Diagnostic
  /-- The session with only these diagnostics waiting. -/
  keepWaiting : Session → List Diagnostic → Session
  /-- A diagnostic as it is reported, in colour if wanted. -/
  format : Diagnostic → Bool → String
  /-- Compiles the files of a session. -/
  compile : Session → CompileOptions → Artifact × Session × List Note
  /-- Whether an artifact is valid. -/
  validate : Artifact → Bool × List Note
  /-- Runs named passes over an artifact. -/
  runPasses : Artifact → List String → Artifact × List Note
  /-- Optimizes an artifact. -/
  optimize : Artifact → Artifact × List Note
  /-- An artifact in one of the output formats. -/
  view : Artifact → OutputFormat → Except Failure (List UInt8)
  /-- What releasing an artifact leaves. -/
  dispose : Artifact → List Note

end Wasmline
