import Wasmline.Program.Basic

/-!
# The asm.js form of a program

One script function that declares every function of the program by name and returns an object with
the exported ones. A call of an index without function becomes a call of `undefined`.
-/

namespace Wasmline.AsmJs

/-- What a function returns, as an expression. -/
def expression (functions : List Func) : Body → String
  | .const value => toString value.toInt
  | .call target =>
    (match functions[target]? with
    | some f => f.name
    | none => "undefined") ++ "() | 0"

/-- The declaration of a function. -/
def declaration (functions : List Func) (f : Func) : String :=
  "\n  function " ++ f.name ++ "() \x7b\n    return " ++ expression functions f.body ++ ";\n  \x7d\n"

/-- The object of exports. -/
def exportsObject (functions : List Func) : String :=
  match functions.filter Func.exported with
  | [] => "\x7b\x7d"
  | exported =>
    "\x7b " ++ ", ".intercalate (exported.map fun f => f.name ++ ": " ++ f.name) ++ " \x7d"

/-- The asm.js form of a program. -/
def render (p : Program) : String :=
  "function asmModule(stdlib, foreign, buffer) \x7b\n  \"use asm\";\n" ++
    String.join (p.functions.map (declaration p.functions)) ++
    "\n  return " ++ exportsObject p.functions ++ ";\n\x7d\n"

end Wasmline.AsmJs
