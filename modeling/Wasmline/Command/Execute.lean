import Wasmline.Command.Line
import Wasmline.Engine.Standard
import Wasmline.Run.Basic

/-!
# What the command does

The command reads its arguments and runs the configuration that they ask for with the standard
engine. Outputs go to their destinations; everything else goes to the error stream in the order in
which it happens: notes as log lines, as far as their level is wanted, and diagnostics.

The level comes from a word, or is debug where the command line asks to be verbose. The word `off`
silences the log, and so does one that is no level.
-/

namespace Wasmline.Command

/-- The lines that `--help` prints. -/
def helpLines : List String :=
  ["Command-line compiler for tswasm - TypeScript entry files to WebAssembly",
   "",
   "Usage: tswasm [OPTIONS] <ENTRY>",
   "",
   "Arguments:",
   "  <ENTRY>  Entry file (the .ts extension is optional)",
   "",
   "Options:",
   "  -o, --outFile [<FILE>]     Output file, format inferred from the extension (.wast/.wat, .js, otherwise binary)",
   "  -b, --binaryFile [<FILE>]  Binary output file (stdout if empty; use `=` before the entry)",
   "  -t, --textFile [<FILE>]    Text format output file (stdout if empty; use `=` before the entry)",
   "  -a, --asmjsFile [<FILE>]   asm.js output file (stdout if empty; use `=` before the entry)",
   "  -c, --validate             Validate the module",
   "  -O, --optimize             Optimize the module",
   "      --noTreeShaking        Keep functions that are not reachable from the entry's exports",
   "      --noDebug              Omit debug information (function names)",
   "      --trapMode <MODE>      Trap mode to apply (clamp, js)",
   "  -v, --verbose              Enable verbose logging",
   "  -h, --help                 Print help",
   "  -V, --version              Print version",
   "",
   "A bare output flag prints to stdout. Place it after the entry, or write it as --binaryFile=, or it takes the entry as its path."]

/-- What `--help` prints. -/
def helpText : String :=
  String.join (helpLines.map (· ++ "\n"))

/-- What `--version` prints. -/
def versionText : String :=
  "tswasm 0.1.0\n"

/-- The least level that is shown; nothing is shown if there is none. -/
abbrev Verbosity := Option Level

namespace Verbosity

/-- The verbosity that a word asks for, in capitals or not. -/
def ofWord (word : String) : Verbosity :=
  match word.map Char.toLower with
  | "trace" => some .trace
  | "debug" => some .debug
  | "info" => some .info
  | "warn" => some .warn
  | "error" | "" => some .error
  | _ => none

/-- The verbosity of a run. -/
def choose (verbose : Bool) (word : Option String) : Verbosity :=
  if verbose then some .debug
  else
    match word with
    | some word => ofWord word
    | none => some .warn

/-- A note is shown. -/
def shows (v : Verbosity) (note : Note) : Bool :=
  v.any fun least => least.rank ≤ note.level.rank

end Verbosity

/-- A line of text as bytes. -/
def lineBytes (line : String) : List UInt8 :=
  Text.utf8 (line.toList ++ ['\n'])

/-- What an event puts on the error stream. -/
def errorBytes (v : Verbosity) : Event → List UInt8
  | .note note => if v.shows note then lineBytes note.line else []
  | .report bytes => bytes
  | _ => []

/-- What an event puts on the standard output. -/
def outputBytes : Event → List UInt8
  | .write ⟨.stdout, bytes⟩ => bytes
  | _ => []

/-- What a finished command leaves: its exit code, what it printed, and the trace of its run. -/
structure Finished where
  code : Nat
  stdout : List UInt8
  stderr : List UInt8
  events : List Event

/-- More imports than a run can come to. -/
def importLimit : Nat := UInt32.size

/-- What is noted when an output has been written. -/
def wroteNote (e : Emission) : Note :=
  match e.destination with
  | .file path => ⟨.info, .command, "Wrote " ++ e.format.display ++ " output to " ++ path⟩
  | .stdout => ⟨.info, .command, "Wrote " ++ e.format.display ++ " output to stdout"⟩

/-- Why a run failed, in words; a failure to read or write is followed by its cause. -/
def describe : Halt → String
  | .failure (.io cause) => (Failure.io cause).message ++ ": " ++ cause.message
  | .failure failure => failure.message
  | .unfinished => "too many imports"

/-- Runs what the command line asks for. -/
def compile (i : Invocation) (loader : Loader) (sink : Sink) : Work Unit := do
  Work.emit ((TrapMode.flagNotes i.trapMode).map .note)
  Work.note .debug .command ("Compiling " ++ i.entry)
  let stream : ErrorStream := ⟨none, .other "", []⟩
  let outcome ← run .standard loader sink stream importLimit i.config false
  Work.emit (outcome.emissions.map fun e => .note (wroteNote e))

/-- The command, given its arguments, the word for its log level and the files around it. -/
def execute (args : List String) (word : Option String) (loader : Loader) (sink : Sink) : Finished :=
  match readLine args with
  | .error .help => ⟨0, Text.utf8 helpText.toList, [], []⟩
  | .error .version => ⟨0, Text.utf8 versionText.toList, [], []⟩
  | .error (.refused error) => ⟨2, [], lineBytes ("error: " ++ error.message), []⟩
  | .ok i =>
    let v := Verbosity.choose i.verbose word
    let work := compile i loader sink
    let stdout := work.events.flatMap outputBytes
    let stderr := work.events.flatMap (errorBytes v)
    match work.result with
    | .ok _ => ⟨0, stdout, stderr, work.events⟩
    | .error halt =>
      let line := "error: Failed to compile " ++ i.entry ++ ": " ++ describe halt
      ⟨1, stdout, stderr ++ lineBytes line, work.events⟩

end Wasmline.Command
