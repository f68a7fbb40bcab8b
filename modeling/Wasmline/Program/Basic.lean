/-!
# Programs of numbered functions

A program is a list of functions that take nothing and return a 32-bit integer. A function is known
by its place in the list: its body is a constant, or a call of the function at some place, which may
turn out not to exist.
-/

namespace Wasmline

/-- What a function of a program returns: a constant, or what the function at an index returns. -/
inductive Body where
  | const (value : Int32)
  | call (target : Nat)
  deriving DecidableEq, Repr

/-- The index that a body calls. -/
def Body.target? : Body → Option Nat
  | const _ => none
  | call target => some target

/-- A function of a program. -/
structure Func where
  name : String
  exported : Bool
  body : Body
  deriving DecidableEq, Repr

/-- A list of functions, with what is to be known about them besides. -/
structure Program where
  functions : List Func
  /-- The names of all functions are part of the binary form, not only those of exports. -/
  debugNames : Bool
  /-- The passes that have been run over the program, first to last. -/
  appliedPasses : List String
  deriving DecidableEq, Repr

/-- The exported functions with their indices, in order. -/
def exportsOf (functions : List Func) : List (Func × Nat) :=
  functions.zipIdx.filter fun e => e.1.exported

/-- The indices that functions call. -/
def calledIndices (functions : List Func) : List Nat :=
  functions.filterMap fun f => f.body.target?

namespace Program

/-- The number of exported functions. -/
def exportCount (p : Program) : Nat :=
  p.functions.countP Func.exported

end Program

end Wasmline
