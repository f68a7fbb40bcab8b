import Wasmline.Program.Reachable

/-!
# Folding constants

A function that ends, through however many calls, at a constant is that constant. Folding replaces
its body and then drops what is no longer reached. Functions whose calls go round in a circle or lead
out of the program keep their calls.

The chain of calls from a function is followed for at most as many steps as there are functions: a
longer one has met some function twice and goes round for ever.
-/

namespace Wasmline

/-- The constant that the calls from `index` end at within `steps` functions. -/
def constantWithin (functions : Array Func) : Nat → Nat → Option Int32
  | 0, _ => none
  | steps + 1, index =>
    match functions[index]? with
    | none => none
    | some f =>
      match f.body with
      | .const value => some value
      | .call target => constantWithin functions steps target

/-- The constant that the function at `index` returns, if it returns one. -/
def constantAt (functions : Array Func) (index : Nat) : Option Int32 :=
  constantWithin functions functions.size index

/-- The functions, each with its constant for a body where it has one. -/
def foldBodies (functions : List Func) : List Func :=
  let table := functions.toArray
  functions.mapIdx fun i f =>
    match constantAt table i with
    | some value => { f with body := .const value }
    | none => f

namespace Program

/-- The program with constants for bodies, before anything is dropped. -/
def foldedInPlace (p : Program) : Program :=
  { p with functions := foldBodies p.functions }

/-- The program with constants for bodies, and only what exports still reach. -/
def foldConstants (p : Program) : Program :=
  p.foldedInPlace.retainReachable

/-- What is noted when constants are folded. -/
def foldNotes (p : Program) : List Note :=
  p.foldedInPlace.retainNotes

end Program

end Wasmline
