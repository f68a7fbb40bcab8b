import Wasmline.Command.Execute

/-!
# The program

What the command does is a function of the files it reads and of how its writes go, so the program
finds these out one at a time: it evaluates the command on what is known so far, does the first thing
that the command wants and that has not been done, and starts over with the answer. When nothing is
left to do, it prints what the command has to say and ends.
-/

namespace Wasmline.Command

/-- The cause behind an error of the system. -/
def causeOf : IO.Error → IoFailure
  | .noFileOrDirectory _ _ _ => .notFound
  | .inappropriateType _ 20 _ => .notADirectory
  | .inappropriateType _ 21 _ => .isADirectory
  | .permissionDenied _ code details => .other s!"{details} (os error {code})"
  | .resourceExhausted _ code details => .other s!"{details} (os error {code})"
  | .otherError code details => .other s!"{details} (os error {code})"
  | error => .other (toString error)

/-- Reads a source file. -/
def readSource (name : String) : IO Reading := do
  match ← (IO.FS.readBinFile name).toBaseIO with
  | .error error => return .unreadable (causeOf error)
  | .ok bytes =>
    match String.fromUTF8? bytes with
    | some text => return .text text
    | none => return .unreadable .notUtf8

/-- Writes an output. -/
def writeOutput (write : Write) : IO (Option IoFailure) := do
  let bytes := ByteArray.mk write.bytes.toArray
  let attempt ← match write.destination with
    | .file path => (IO.FS.writeBinFile path bytes).toBaseIO
    | .stdout => (do
        let out ← IO.getStdout
        out.write bytes
        out.flush : IO Unit).toBaseIO
  match attempt with
  | .ok _ => return none
  | .error error => return some (causeOf error)

/-- Evaluates the command until everything it wants has been read and written. -/
partial def settle (args : List String) (word : Option String) (readings : List (String × Reading))
    (outcomes : List (Option IoFailure)) : IO Finished := do
  let loader : Loader := fun name => (readings.lookup name).getD .missing
  let sink : Sink := fun written _ => (outcomes[written.length]?).getD none
  let finished := execute args word loader sink
  let wanted := (finished.events.filterMap Event.load?).filter fun name =>
    (readings.lookup name).isNone
  match wanted with
  | name :: _ => settle args word (readings ++ [(name, ← readSource name)]) outcomes
  | [] =>
    match (finished.events.filterMap Event.write?)[outcomes.length]? with
    | some write => settle args word readings (outcomes ++ [← writeOutput write])
    | none => return finished

end Wasmline.Command

open Wasmline Command in
/-- The program. -/
def main (args : List String) : IO UInt32 := do
  let finished ← settle args (← IO.getEnv "RUST_LOG") [] []
  if finished.events.isEmpty then
    let out ← IO.getStdout
    out.write (ByteArray.mk finished.stdout.toArray)
    out.flush
  let err ← IO.getStderr
  err.write (ByteArray.mk finished.stderr.toArray)
  return finished.code.toUInt32
