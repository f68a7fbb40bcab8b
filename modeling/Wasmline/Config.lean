import Wasmline.Output.Plan
import Wasmline.Program.Lowering

/-!
# Configurations and stages

A configuration says what to compile, how, and where the outputs go. From it follow the compile
options and the three stages that a compiled program passes through, of which only validation can
fail.
-/

namespace Wasmline

/-- How conversions that would trap are to be treated. -/
inductive TrapMode where
  | none
  | clamp
  | js
  deriving DecidableEq, Repr

namespace TrapMode

/-- The mode that a word asks for. A word that names no mode asks for none. -/
def ofFlag : Option String → TrapMode
  | some "clamp" => clamp
  | some "js" => js
  | _ => none

/-- What is noted when a mode is asked for by a word. -/
def flagNotes : Option String → List Note
  | some word =>
    if word = "clamp" ∨ word = "js" then []
    else [⟨.warn, .staging, "Unrecognized trap mode '" ++ word ++
      "', no trap-mode pass will run"⟩]
  | Option.none => []

/-- The pass that brings the mode about. -/
def passName? : TrapMode → Option String
  | none => Option.none
  | clamp => some "trap-mode-clamp"
  | js => some "trap-mode-js"

/-- The mode's name in messages. -/
def display : TrapMode → String
  | none => "None"
  | clamp => "Clamp"
  | js => "Js"

end TrapMode

/-- What is done to a compiled program before it is written. -/
inductive Stage where
  | validate
  | trapMode (mode : TrapMode)
  | optimize
  deriving DecidableEq, Repr

/-- The stage in messages. -/
def Stage.display : Stage → String
  | validate => "validate"
  | trapMode mode => "trap-mode (" ++ mode.display ++ ")"
  | optimize => "optimize"

/-- What a failing stage means for the run. -/
inductive FailurePolicy where
  /-- The run fails. -/
  | fatal
  /-- The stage cannot fail; if it does all the same, the run goes on. -/
  | infallible
  deriving DecidableEq, Repr

/-- A stage, whether it is wanted and what its failing means. -/
structure PlannedStage where
  stage : Stage
  enabled : Bool
  policy : FailurePolicy
  deriving DecidableEq, Repr

/-- What to compile, how, and where the outputs go. -/
structure Config where
  entry : String
  extension : String
  validate : Bool
  optimize : Bool
  treeShaking : Bool
  debugInfo : Bool
  trapMode : TrapMode
  outputs : Outputs
  deriving DecidableEq, Repr

namespace Config

/-- The compile options of a configuration. -/
def options (config : Config) : CompileOptions where
  treeShaking := config.treeShaking
  debugInfo := config.debugInfo

/-- The stages of a configuration, in order. -/
def stages (config : Config) : List PlannedStage :=
  [⟨.validate, config.validate, .fatal⟩,
   ⟨.trapMode config.trapMode, decide (config.trapMode ≠ .none), .infallible⟩,
   ⟨.optimize, config.optimize, .infallible⟩]

end Config

end Wasmline
