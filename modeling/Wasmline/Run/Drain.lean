import Wasmline.Run.Work
import Wasmline.Text.Utf8

/-!
# Reporting diagnostics

Waiting diagnostics are taken from the queue one by one, counted, and written to the error stream,
each with a line end. The stream may take only so many bytes: what fits of a text is taken, and the
first text that does not fit whole ends the reporting, with the diagnostics behind it still waiting.
When none waits any more the stream is flushed, which may fail as well.
-/

namespace Wasmline

/-- How many diagnostics of each severity there are. -/
structure Tally where
  errors : Nat
  warnings : Nat
  infos : Nat
  deriving DecidableEq, Repr

namespace Tally

/-- No diagnostics. -/
def zero : Tally :=
  ⟨0, 0, 0⟩

/-- One more diagnostic. -/
def record (t : Tally) : Severity → Tally
  | .error => { t with errors := t.errors + 1 }
  | .warning => { t with warnings := t.warnings + 1 }
  | .info => { t with infos := t.infos + 1 }

/-- How many diagnostics there are. -/
def total (t : Tally) : Nat :=
  t.errors + t.warnings + t.infos

/-- There is at least one error. -/
def hasErrors (t : Tally) : Bool :=
  0 < t.errors

/-- What is noted when diagnostics have been reported. -/
def notes (t : Tally) : List Note :=
  if t.total = 0 then []
  else [⟨.debug, .reporting,
    s!"Drained {t.total} diagnostic(s): {t.errors} error(s), {t.warnings} warning(s), {t.infos} info"⟩]

end Tally

/-- An error stream: how many bytes it still takes, if there is a limit, and how it fails then. -/
structure ErrorStream where
  room : Option Nat
  closed : IoFailure
  /-- How each flush to come fails, if it does, the next one first. Flushes behind these go well. -/
  flushes : List (Option IoFailure)
  deriving DecidableEq, Repr

namespace ErrorStream

/-- The stream takes all of these bytes. -/
def fits (s : ErrorStream) (bytes : List UInt8) : Bool :=
  s.room.all fun n => bytes.length ≤ n

/-- What the stream takes of these bytes. -/
def taken (s : ErrorStream) (bytes : List UInt8) : List UInt8 :=
  match s.room with
  | some n => bytes.take n
  | none => bytes

/-- The stream after these bytes. -/
def push (s : ErrorStream) (bytes : List UInt8) : ErrorStream :=
  { s with room := s.room.map (· - bytes.length) }

/-- How the next flush fails, if it does. -/
def flushFailure? (s : ErrorStream) : Option IoFailure :=
  s.flushes.head?.join

/-- The stream after a flush. -/
def flush (s : ErrorStream) : ErrorStream :=
  { s with flushes := s.flushes.tail }

end ErrorStream

/-- Where reporting a queue of diagnostics ended. -/
structure Drained where
  /-- The diagnostics that were taken from the queue. -/
  tally : Tally
  /-- Those still waiting. -/
  rest : List Diagnostic
  stream : ErrorStream
  /-- How the stream failed, if it did. -/
  failure : Option IoFailure
  events : List Event

/-- The bytes that report a diagnostic. -/
def reportBytes (format : Diagnostic → String) (d : Diagnostic) : List UInt8 :=
  Text.utf8 ((format d).toList ++ ['\n'])

/-- Reports a queue of diagnostics after those of `tally`. -/
def drainFrom (format : Diagnostic → String) (stream : ErrorStream) (tally : Tally) :
    List Diagnostic → Drained
  | [] =>
    let notes := if stream.flushFailure?.isNone then tally.notes else []
    { tally, rest := [], stream := stream.flush, failure := stream.flushFailure?
      events := .call (.nextDiagnostic none) :: notes.map .note }
  | d :: ds =>
    let bytes := reportBytes format d
    let written := [.call (.nextDiagnostic (some d)), .report (stream.taken bytes)]
    if stream.fits bytes then
      let drained := drainFrom format (stream.push bytes) (tally.record d.severity) ds
      { drained with events := written ++ drained.events }
    else
      { tally := tally.record d.severity, rest := ds, stream := stream.push bytes
        failure := some stream.closed, events := written }

/-- Reports a queue of diagnostics. -/
def drain (format : Diagnostic → String) (stream : ErrorStream) (queue : List Diagnostic) : Drained :=
  drainFrom format stream .zero queue

end Wasmline
