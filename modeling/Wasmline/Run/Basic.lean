import Wasmline.Run.Discovery
import Wasmline.Run.Drain
import Wasmline.Run.Stages

/-!
# Runs

A run takes a configuration through these steps, and ends at the first that fails:

1. find all source files;
2. report what the engine has to say about them: an error ends the run;
3. compile;
4. report again: an error ends the run;
5. validate, apply the trap mode and optimize, as far as the configuration wants it;
6. produce every output, and only then write them, in the order of the plan.

Once there is an artifact it is released exactly once, whichever way the run ends, and nothing is
written unless every step before has gone well.
-/

namespace Wasmline

/-- Whether an output can be written after those that have been, or how it fails. -/
abbrev Sink := List Write → Write → Option IoFailure

/-- What a run that went well has done. -/
structure Outcome where
  /-- The paths of the source files, in the order in which they came. -/
  files : List String
  emissions : List Emission
  warnings : Nat
  deriving DecidableEq, Repr

/-- Passes a report on: the run ends if the stream failed or if there were errors. -/
def Drained.gate (drained : Drained) (tooMany : Nat → Failure) : Work Unit where
  result :=
    match drained.failure with
    | some cause => .error (.failure (.io cause))
    | none =>
      if drained.tally.hasErrors then .error (.failure (tooMany drained.tally.errors)) else .ok ()
  events := drained.events

/-- Passes the stages on. -/
def Staged.gate {engine : Engine} (staged : Staged engine) : Work Unit where
  result :=
    match staged.failure with
    | some failure => .error (.failure failure)
    | none => .ok ()
  events := staged.events

/-- Stages change the artifact that they are run on. -/
def Staged.owned {engine : Engine} (stages : engine.Artifact → Staged engine) :
    Owning engine.Artifact Unit :=
  fun artifact => ((stages artifact).gate, (stages artifact).artifact)

/-- What is done to release an artifact. -/
def disposal (engine : Engine) (artifact : engine.Artifact) : List Event :=
  .note ⟨.trace, .owning, "Disposing compiled artifact"⟩ :: .call .dispose ::
    (engine.dispose artifact).map .note

/-- Produces every output of a plan. -/
def produce (engine : Engine) (artifact : engine.Artifact) : List Emission → Work (List (Emission × Write))
  | [] => return []
  | emission :: rest => do
    Work.emit [.call (.view emission.format)]
    match engine.view artifact emission.format with
    | .error failure => Work.fail failure
    | .ok bytes =>
      let produced ← produce engine artifact rest
      return (emission, ⟨emission.destination, bytes⟩) :: produced

/-- What is noted before an output is written. -/
def writeNote (emission : Emission) : Note :=
  match emission.destination with
  | .file path => ⟨.debug, .planning, "Writing " ++ emission.format.display ++ " output to " ++ path⟩
  | .stdout => ⟨.debug, .planning, "Printing " ++ emission.format.display ++ " output to stdout"⟩

/-- Writes outputs after those that have been written. -/
def writeAll (sink : Sink) (written : List Write) : List (Emission × Write) → Work Unit
  | [] => return ()
  | (emission, write) :: rest => do
    Work.emit [.note (writeNote emission)]
    match sink written write with
    | some cause => Work.fail (.io cause)
    | none =>
      Work.emit [.write write]
      writeAll sink (written ++ [write]) rest

/-- Plans the outputs of an artifact, produces them and writes them. -/
def output (engine : Engine) (sink : Sink) (outputs : Outputs) (artifact : engine.Artifact) :
    Work Unit := do
  Work.emit (outputs.planNotes.map .note)
  let produced ← produce engine artifact outputs.plan
  writeAll sink [] produced

/-- Everything that is done with an artifact: its report, the stages and its outputs. -/
def useArtifact (engine : Engine) (sink : Sink) (config : Config) (report : Drained) :
    Owning engine.Artifact Unit := do
  Owning.look fun _ => report.gate .compiling
  Staged.owned fun artifact => runStages engine artifact config.stages
  Owning.look (output engine sink config.outputs)

/-- Takes an artifact through the steps behind compiling, and releases it. -/
def finish (engine : Engine) (sink : Sink) (config : Config) (artifact : engine.Artifact)
    (report : Drained) : Work Unit :=
  Owning.releasing (disposal engine) (useArtifact engine sink config report) artifact

/-- Runs a configuration. -/
def run (engine : Engine) (loader : Loader) (sink : Sink) (stream : ErrorStream) (limit : Nat)
    (config : Config) (colorize : Bool) : Work Outcome := do
  let gathered ← discover engine loader config.extension config.entry limit
  let format := fun d => engine.format d colorize
  let parsed := drain format stream (engine.waiting gathered.session)
  parsed.gate .parsing
  Work.note .debug .staging ("Compiling with " ++ config.options.describe)
  let (artifact, session, notes) :=
    engine.compile (engine.keepWaiting gathered.session parsed.rest) config.options
  Work.emit (.call (.compile config.options) :: notes.map .note)
  let compiled := drain format parsed.stream (engine.waiting session)
  finish engine sink config artifact compiled
  Work.note .info .driving s!"Compiled {gathered.files.length} file(s) from {config.entry}"
  return ⟨gathered.files, config.outputs.plan, parsed.tally.warnings + compiled.tally.warnings⟩

end Wasmline
