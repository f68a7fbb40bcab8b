import Wasmline.Engine.Basic
import Wasmline.Run.Work
import Wasmline.Source.Path

/-!
# Finding source files

A path is looked for under two names: with the extension, and as the index of a directory of that
name. Starting from the entry, a run supplies the engine with each file that it asks for until it
asks for no more.

An engine may go on asking for ever. The number of imports that a run answers is therefore limited by
an argument, and a run that meets the limit is left unfinished.
-/

namespace Wasmline

/-- What came of reading a source file. -/
inductive Reading where
  | text (text : String)
  /-- There is no such file. -/
  | missing
  /-- There may be one, but it could not be read. -/
  | unreadable (cause : IoFailure)
  deriving DecidableEq, Repr

/-- What a file of this name reads as. -/
abbrev Loader := String → Reading

/-- Files held in memory under their names. -/
def Loader.ofFiles (files : List (String × String)) : Loader := fun name =>
  match files.lookup name with
  | some text => .text text
  | none => .missing

/-- Reads a file if it is there. -/
def tryFile (loader : Loader) (file : String) : Work (Option String) :=
  let events := [.note ⟨.trace, .resolving, "Trying " ++ file⟩, .load file]
  match loader file with
  | .text text => ⟨.ok (some text), events⟩
  | .missing => ⟨.ok none, events⟩
  | .unreadable cause =>
    ⟨.ok none, events ++
      [.note ⟨.trace, .loading, "Cannot read " ++ file ++ ": " ++ cause.message⟩]⟩

/-- Finds the source file for a path. -/
def resolve (loader : Loader) (extension path : String) (origin : Origin) : Work SourceFile := do
  let known := Path.normalize path extension
  let direct := known ++ extension
  match ← tryFile loader direct with
  | some text =>
    Work.note .debug .resolving ("Resolved " ++ path ++ " -> " ++ direct)
    return ⟨known, text, origin⟩
  | none =>
    let index := known ++ "/index"
    match ← tryFile loader (index ++ extension) with
    | some text =>
      Work.note .debug .resolving ("Resolved " ++ path ++ " -> " ++ index ++ extension)
      return ⟨index, text, origin⟩
    | none => Work.fail (.fileNotFound direct origin)

/-- A session that has all its files, and the paths of the files in the order in which they came. -/
structure Gathered (engine : Engine) where
  session : engine.Session
  files : List String

/-- Supplies a session with what it asks for, as long as fewer than `limit` imports are answered. -/
def gather (engine : Engine) (loader : Loader) (extension : String) :
    (limit : Nat) → Gathered engine → Work (Gathered engine)
  | 0, _ => ⟨.error .unfinished, []⟩
  | limit + 1, ⟨session, files⟩ =>
    match engine.nextImport session with
    | (none, session) => do
      Work.emit [.call (.nextImport none)]
      return ⟨session, files⟩
    | (some path, session) => do
      Work.emit [.call (.nextImport (some path))]
      let file ← resolve loader extension path .imported
      Work.note .debug .gathering ("Supplying import " ++ path ++ " as " ++ file.path)
      let (session, notes) := engine.supply session file
      Work.emit (.call (.supply file) :: notes.map .note)
      gather engine loader extension limit ⟨session, files ++ [file.path]⟩

/-- Finds all files of a program from its entry. -/
def discover (engine : Engine) (loader : Loader) (extension entry : String) (limit : Nat) :
    Work (Gathered engine) := do
  let file ← resolve loader extension entry .entry
  Work.note .debug .gathering ("Entry file: " ++ file.path)
  let (session, notes) := engine.start file
  Work.emit (.call (.start file) :: notes.map .note)
  let gathered ← gather engine loader extension limit ⟨session, [file.path]⟩
  Work.note .debug .gathering s!"Module graph complete: {gathered.files.length} file(s)"
  return gathered

end Wasmline
