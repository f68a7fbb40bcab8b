import Wasmline.Source.Declaration
import Wasmline.Source.File

/-!
# Sessions over source files

A session holds the files that have been read and asks for those that they import. Every path is
asked for at most once, and one that was read before it was met as an import is not asked for at all.
Paths are asked for in the order in which the imports were met. A file that is supplied a second time
under one path is ignored, whatever its text.
-/

namespace Wasmline

/-- The files read so far, and what is still to be asked for and reported. -/
structure Session where
  /-- The files that have been read, in the order in which they came. -/
  files : List ParsedFile
  /-- Every path that has been read or asked for. -/
  requested : List String
  /-- The paths still to be asked for, in order. -/
  pending : List String
  /-- The diagnostics still to be reported, oldest first. -/
  waiting : List Diagnostic
  deriving DecidableEq, Repr

namespace Session

/-- A session without files. -/
def empty : Session :=
  ⟨[], [], [], []⟩

/-- The paths of the files that have been read. -/
def paths (s : Session) : List String :=
  s.files.map ParsedFile.path

/-- The paths among these that were not requested before, each once, in order. -/
def newRequests (requested : List String) : List String → List String
  | [] => []
  | path :: paths =>
    if path ∈ requested then newRequests requested paths
    else path :: newRequests (path :: requested) paths

/-- What a file adds to the paths still to be asked for. -/
def requestsOf (s : Session) (parsed : ParsedFile) : List String :=
  newRequests (parsed.path :: s.requested) (parsed.imports.map Import.path)

/-- The session with a file read, unless there is one under its path already. -/
def supply (s : Session) (file : SourceFile) : Session :=
  if file.path ∈ s.paths then s
  else
    let parsed := ParsedFile.parse file.path file.text
    let new := s.requestsOf parsed
    { files := s.files ++ [parsed]
      requested := new.reverse ++ parsed.path :: s.requested
      pending := s.pending ++ new
      waiting := s.waiting ++ parsed.diagnostics }

/-- What is noted when a file is supplied. -/
def supplyNotes (s : Session) (file : SourceFile) : List Note :=
  if file.path ∈ s.paths then
    [⟨.debug, .session, "Ignoring " ++ file.path ++ ": already parsed"⟩]
  else
    let parsed := ParsedFile.parse file.path file.text
    parsed.note :: (s.requestsOf parsed).map fun path =>
      ⟨.trace, .session, file.path ++ " requests " ++ path⟩

/-- A session on an entry file. -/
def start (entry : SourceFile) : Session :=
  empty.supply entry

/-- What is noted when a session is started. -/
def startNotes (entry : SourceFile) : List Note :=
  ⟨.debug, .lowering, "Starting session at " ++ entry.path⟩ :: empty.supplyNotes entry

/-- The next path to ask for, and the session in which it has been. -/
def nextImport (s : Session) : Option String × Session :=
  match s.pending with
  | [] => (none, s)
  | path :: rest => (some path, { s with pending := rest })

/-- The next diagnostic to report, and the session in which it has been. -/
def nextDiagnostic (s : Session) : Option Diagnostic × Session :=
  match s.waiting with
  | [] => (none, s)
  | d :: rest => (some d, { s with waiting := rest })

/-- The session with only these diagnostics waiting. -/
def keepWaiting (s : Session) (rest : List Diagnostic) : Session :=
  { s with waiting := rest }

end Session

end Wasmline
