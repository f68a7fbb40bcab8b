import Wasmline.Engine.Basic
import Wasmline.Run.Work

/-!
# Running stages

The stages that are enabled are run in order on an artifact. A stage that fails ends the run if it is
fatal; what the artifact had become by then is kept, so that it can be released.
-/

namespace Wasmline

/-- An artifact after some stages, and why they ended early if they did. -/
structure Staged (engine : Engine) where
  artifact : engine.Artifact
  failure : Option Failure
  events : List Event

/-- Runs one stage. -/
def applyStage (engine : Engine) (artifact : engine.Artifact) : Stage → Staged engine
  | .validate =>
    let (valid, notes) := engine.validate artifact
    ⟨artifact, if valid then none else some .invalid, .call .validate :: notes.map .note⟩
  | .trapMode mode =>
    match mode.passName? with
    | some pass =>
      let (artifact, notes) := engine.runPasses artifact [pass]
      ⟨artifact, none, .call (.runPasses [pass]) :: notes.map .note⟩
    | none => ⟨artifact, none, []⟩
  | .optimize =>
    let (artifact, notes) := engine.optimize artifact
    ⟨artifact, none, .call .optimize :: notes.map .note⟩

/-- Runs the stages that are enabled, in order. -/
def runStages (engine : Engine) (artifact : engine.Artifact) : List PlannedStage → Staged engine
  | [] => ⟨artifact, none, []⟩
  | planned :: rest =>
    if planned.enabled then
      let staged := applyStage engine artifact planned.stage
      let begun := .note ⟨.debug, .staging, "Running stage: " ++ planned.stage.display⟩ :: staged.events
      match staged.failure, planned.policy with
      | some failure, .fatal => ⟨staged.artifact, some failure, begun⟩
      | some failure, .infallible =>
        let warning := .note ⟨.warn, .staging, "Stage " ++ planned.stage.display ++ " failed: " ++ failure.message⟩
        let last := runStages engine staged.artifact rest
        { last with events := begun ++ warning :: last.events }
      | none, _ =>
        let last := runStages engine staged.artifact rest
        { last with events := begun ++ last.events }
    else runStages engine artifact rest

end Wasmline
