import Wasmline.Program.Reachable
import Wasmline.Source.Declaration

/-!
# From declarations to a program

The files of a program, the entry file first, make up one list of declarations in file order and then
source order. The first declaration of a name is the function of that name, and its place among the
first declarations is its index; a later declaration of the same name is reported and ignored. Calls
are linked by name. A call of a name that nothing declares is reported and returns zero instead.

Only the entry file's exports are exports of the program. A function that is not declared as an
export, in whatever file, and that no function calls, is reported as unused.
-/

namespace Wasmline

/-- What to compile for. -/
structure CompileOptions where
  /-- Drop the functions that no export reaches. -/
  treeShaking : Bool
  /-- Keep the names of all functions. -/
  debugInfo : Bool
  deriving DecidableEq, Repr

/-- The options in words. -/
def CompileOptions.describe (options : CompileOptions) : String :=
  "CompileOptions \x7b target: Wasm32, tree_shaking: " ++ toString options.treeShaking ++
    ", debug_info: " ++ toString options.debugInfo ++ " \x7d"

/-- A declaration, and whether the program exports it. -/
structure Linked where
  declaration : Declaration
  exported : Bool
  deriving DecidableEq, Repr

namespace Linked

/-- The name of the declared function. -/
def name (d : Linked) : String :=
  d.declaration.name

/-- All declarations of the files, in order; the first file is the entry. -/
def all (files : List ParsedFile) : List Linked :=
  (files.mapIdx fun i file => file.functions.map fun d => ⟨d, i == 0 && d.exported⟩).flatten

/-- The declarations whose name was neither seen before nor declared further in front. -/
def firsts (seen : List String) : List Linked → List Linked
  | [] => []
  | d :: ds => if d.name ∈ seen then firsts seen ds else d :: firsts (d.name :: seen) ds

/-- The declarations whose name was seen before or declared further in front. -/
def repeats (seen : List String) : List Linked → List Linked
  | [] => []
  | d :: ds => if d.name ∈ seen then d :: repeats seen ds else repeats (d.name :: seen) ds

/-- The function that a declaration stands for among the functions of these names. -/
def link (names : List String) (d : Linked) : Func where
  name := d.name
  exported := d.exported
  body :=
    match d.declaration.body with
    | .int value => .const value
    | .call callee =>
      match names.idxOf? callee with
      | some target => .call target
      | none => .const 0

/-- The report on a declaration of a name that is taken. -/
def duplicateReport (d : Linked) : Diagnostic :=
  (Finding.duplicateFunction d.name).diagnose d.declaration.location

/-- The report on a call of a name that is not declared. -/
def unknownReport? (names : List String) (d : Linked) : Option Diagnostic :=
  match d.declaration.body with
  | .int _ => none
  | .call callee =>
    if callee ∈ names then none
    else some ((Finding.unknownName callee).diagnose d.declaration.bodyLocation)

/-- The report on a function that is not declared as an export and whose index is not among those that
are called. -/
def unusedReport? (called : List Nat) (d : Linked × Nat) : Option Diagnostic :=
  if d.1.declaration.exported || called.contains d.2 then none
  else some ((Finding.unusedFunction d.1.name).diagnose d.1.declaration.location)

end Linked

/-- A program and what is to be reported about its declarations. -/
structure Lowered where
  program : Program
  diagnostics : List Diagnostic
  deriving DecidableEq, Repr

namespace Lowered

/-- The program before anything is dropped from it. -/
def linked (files : List ParsedFile) (debugNames : Bool) : Program :=
  let declared := Linked.firsts [] (Linked.all files)
  { functions := declared.map (Linked.link (declared.map Linked.name))
    debugNames
    appliedPasses := [] }

/-- What is to be reported about the declarations of the files. -/
def reports (files : List ParsedFile) : List Diagnostic :=
  let all := Linked.all files
  let declared := Linked.firsts [] all
  let names := declared.map Linked.name
  let called := calledIndices (declared.map (Linked.link names))
  (Linked.repeats [] all).map Linked.duplicateReport ++
    declared.filterMap (Linked.unknownReport? names) ++
    declared.zipIdx.filterMap (Linked.unusedReport? called)

/-- Makes a program of parsed files, the entry file first. -/
def ofFiles (files : List ParsedFile) (options : CompileOptions) : Lowered where
  program :=
    let program := linked files options.debugInfo
    if options.treeShaking then program.retainReachable else program
  diagnostics := reports files

/-- What is noted while files are made into a program. -/
def notes (files : List ParsedFile) (options : CompileOptions) : List Note :=
  if options.treeShaking then (linked files options.debugInfo).retainNotes else []

end Lowered

end Wasmline
