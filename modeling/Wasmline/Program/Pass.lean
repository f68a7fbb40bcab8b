import Wasmline.Program.Folding

/-!
# Passes over a program

Named passes are recorded with the program and change nothing else; a name that is no pass is
skipped. Optimizing folds constants.
-/

namespace Wasmline

/-- The names of passes that can be run. -/
def knownPasses : List String :=
  ["trap-mode-clamp", "trap-mode-js"]

namespace Program

/-- Runs the named passes. -/
def runPasses (p : Program) (names : List String) : Program :=
  { p with appliedPasses := p.appliedPasses ++ names.filter knownPasses.contains }

/-- What is noted when the named passes are run. -/
def passNotes (names : List String) : List Note :=
  names.map fun name =>
    if knownPasses.contains name then ⟨.debug, .artifact, "Running pass " ++ name⟩
    else ⟨.warn, .artifact, "Unknown pass '" ++ name ++ "' skipped"⟩

/-- Makes the program smaller without changing what its exports return. -/
def optimize (p : Program) : Program :=
  p.foldConstants

/-- What is noted when the program is optimized. -/
def optimizeNotes (p : Program) : List Note :=
  p.foldNotes ++ [⟨.debug, .artifact,
    s!"Optimized module: {p.functions.length} -> {p.optimize.functions.length} function(s)"⟩]

/-- What is noted when the program is released. -/
def releaseNote (p : Program) : Note :=
  ⟨.trace, .artifact, s!"Released module with {p.functions.length} function(s)"⟩

end Program

end Wasmline
