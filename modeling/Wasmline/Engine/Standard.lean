import Wasmline.AsmJs
import Wasmline.Engine.Basic
import Wasmline.Program.Fingerprint
import Wasmline.Program.Pass
import Wasmline.Source.Session
import Wasmline.Wasm.Text

/-!
# The standard engine

The engine that reads one-line declarations and makes programs of them: its sessions hold parsed
files and its artifacts are programs. It is known by the limits that its check of programs keeps
(`Engine.checking`).
-/

namespace Wasmline

namespace Session

/-- Makes a program of the session's files; what is to be reported about it joins the queue. -/
def compile (s : Session) (options : CompileOptions) : Program × Session :=
  let lowered := Lowered.ofFiles s.files options
  (lowered.program, { s with waiting := s.waiting ++ lowered.diagnostics })

/-- What is noted when a session is compiled. -/
def compileNotes (s : Session) (options : CompileOptions) : List Note :=
  let program := (Lowered.ofFiles s.files options).program
  let digest := String.ofList (program.fingerprint.toList.take 8)
  Lowered.notes s.files options ++ [⟨.info, .lowering,
    s!"Lowered {s.files.length} file(s) to {program.functions.length} function(s), {program.exportCount} export(s) [{digest}]"⟩]

end Session

namespace Program

/-- The program in an output format. -/
def view (p : Program) : OutputFormat → Except Failure (List UInt8)
  | .binary => .ok (Wasm.encode p)
  | .text =>
    match Wasm.text p with
    | .ok text => .ok (Text.utf8 text.toList)
    | .error message => .error (.emit "text" message)
  | .asmjs => .ok (Text.utf8 (AsmJs.render p).toList)

end Program

/-- The engine for one-line declarations whose check keeps these limits. -/
def Engine.checking (limits : Wasm.Limits) : Engine where
  Session := Wasmline.Session
  Artifact := Program
  start entry := (Wasmline.Session.start entry, Wasmline.Session.startNotes entry)
  nextImport := Wasmline.Session.nextImport
  supply s file := (Wasmline.Session.supply s file, Wasmline.Session.supplyNotes s file)
  waiting := Wasmline.Session.waiting
  keepWaiting := Wasmline.Session.keepWaiting
  format := Diagnostic.render
  compile s options :=
    let compiled := Wasmline.Session.compile s options
    (compiled.1, compiled.2, Wasmline.Session.compileNotes s options)
  validate p := (Wasm.isValid limits p, Wasm.validationNotes limits p)
  runPasses p names := (p.runPasses names, Program.passNotes names)
  optimize p := (p.optimize, p.optimizeNotes)
  view := Program.view
  dispose p := [p.releaseNote]

/-- The engine for one-line declarations. -/
def Engine.standard : Engine :=
  .checking .standard

end Wasmline
