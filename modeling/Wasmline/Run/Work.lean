import Wasmline.Config
import Wasmline.Failure
import Wasmline.Source.File

/-!
# Work and its trace

A run reads files, drives an engine, reports diagnostics and writes outputs. Here that is a value: what
the work came to, and everything that was done on the way, first to last. A piece of work that stops
short keeps what it had done; work that follows it is not begun.

What was done is a list of events. The log, the file names asked for, the engine's calls, the reported
text and the outputs are each a part of it, so the order between any two of them is known as well.
-/

namespace Wasmline

/-- A call of an engine, with what it was given or what it answered. -/
inductive Call where
  | start (file : SourceFile)
  | nextImport (path : Option String)
  | supply (file : SourceFile)
  | nextDiagnostic (diagnostic : Option Diagnostic)
  | compile (options : CompileOptions)
  | validate
  | runPasses (names : List String)
  | optimize
  | view (format : OutputFormat)
  | dispose
  deriving DecidableEq, Repr

/-- An output that was written: where and what. -/
structure Write where
  destination : Destination
  bytes : List UInt8
  deriving DecidableEq, Repr

/-- Something that was done. -/
inductive Event where
  | note (note : Note)
  /-- A file was asked for by name. -/
  | load (file : String)
  | call (call : Call)
  /-- These bytes were taken by the error stream. -/
  | report (bytes : List UInt8)
  | write (write : Write)
  deriving DecidableEq, Repr

/-- Why work stopped short. -/
inductive Halt where
  | failure (failure : Failure)
  /-- The engine still asked for imports when as many had been supplied as the run allows. -/
  | unfinished
  deriving DecidableEq, Repr

/-- What a piece of work came to, and what was done on the way. -/
@[ext] structure Work (α : Type) where
  result : Except Halt α
  events : List Event

namespace Work

/-- Nothing to do: the result is there. -/
protected def pure {α : Type} (a : α) : Work α :=
  ⟨.ok a, []⟩

/-- Goes on with the result, unless the work stopped short. -/
protected def bind {α β : Type} (work : Work α) (next : α → Work β) : Work β :=
  match work.result with
  | .ok a =>
    let rest := next a
    ⟨rest.result, work.events ++ rest.events⟩
  | .error halt => ⟨.error halt, work.events⟩

instance : Monad Work where
  pure := Work.pure
  bind := Work.bind

/-- Work that came to a result is followed by what is made of it. -/
theorem bind_of_ok {α β : Type} {work : Work α} {a : α} (h : work.result = .ok a)
    (next : α → Work β) :
    work >>= next = ⟨(next a).result, work.events ++ (next a).events⟩ := by
  change Work.bind work next = _
  simp [Work.bind, h]

/-- Nothing follows work that stopped short. -/
theorem bind_of_error {α β : Type} {work : Work α} {halt : Halt} (h : work.result = .error halt)
    (next : α → Work β) : work >>= next = ⟨.error halt, work.events⟩ := by
  change Work.bind work next = _
  simp [Work.bind, h]

/-- Steps of work can be grouped in any way. -/
instance : LawfulMonad Work :=
  LawfulMonad.mk' _
    (fun work => by
      cases h : work.result with
      | ok a => ext1 <;> simp [Functor.map, Work.bind, Work.pure, h]
      | error halt => ext1 <;> simp [Functor.map, Work.bind, h])
    (fun a next => by ext1 <;> simp [bind, pure, Work.bind, Work.pure])
    (fun work next last => by
      cases h : work.result with
      | error halt => simp [bind, Work.bind, h]
      | ok a =>
        cases h' : (next a).result with
        | error halt => simp [bind, Work.bind, h, h']
        | ok b => simp [bind, Work.bind, h, h'])

/-- Does these things. -/
def emit (events : List Event) : Work Unit :=
  ⟨.ok (), events⟩

/-- Leaves a note. -/
def note (level : Level) (scope : Scope) (text : String) : Work Unit :=
  emit [.note ⟨level, scope, text⟩]

/-- Stops short. -/
def fail {α : Type} (failure : Failure) : Work α :=
  ⟨.error (.failure failure), []⟩

end Work

/-! ### Work on something owned -/

/-- Work on something that it owns: what it comes to, and what the thing has become by then, also if the
work stopped short. -/
def Owning (A α : Type) : Type :=
  A → Work α × A

namespace Owning

variable {A α β : Type}

protected def pure (x : α) : Owning A α :=
  fun a => (pure x, a)

/-- Goes on with the result and with what the thing has become. -/
protected def bind (use : Owning A α) (next : α → Owning A β) : Owning A β :=
  fun a =>
    let (work, changed) := use a
    (work >>= fun x => (next x changed).1,
      match work.result with
      | .ok x => (next x changed).2
      | .error _ => changed)

instance : Monad (Owning A) where
  pure := Owning.pure
  bind := Owning.bind

/-- Work that only looks at the thing. -/
def look (work : A → Work α) : Owning A α :=
  fun a => (work a, a)

/-- Work on the thing that releases it at the end, whichever way it ends. -/
def releasing (release : A → List Event) (use : Owning A α) (a : A) : Work α :=
  let (work, last) := use a
  { work with events := work.events ++ release last }

end Owning

/-! ### Parts of a trace -/

/-- The event as a note. -/
def Event.note? : Event → Option Note
  | note n => some n
  | _ => none

/-- The event as the name of a file that was asked for. -/
def Event.load? : Event → Option String
  | load file => some file
  | _ => none

/-- The event as a call of the engine. -/
def Event.call? : Event → Option Call
  | call c => some c
  | _ => none

/-- The bytes that an event added to the error stream. -/
def Event.reported : Event → List UInt8
  | report bytes => bytes
  | _ => []

/-- The event as an output. -/
def Event.write? : Event → Option Write
  | write w => some w
  | _ => none

end Wasmline
