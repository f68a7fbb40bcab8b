import Wasmline.Config
import Wasmline.Source.Path
import Wasmline.Text.Visible

/-!
# The command line

Arguments are read from left to right. An option is a switch, which is given or not, or a setting,
which has a value: behind an equals sign, or for a short name also right behind it, or else in the next
argument, unless that starts with a dash and is more than one. The output settings can do without a
value and are empty then. Two dashes end the options; the one argument that is no option is the entry.

A setting that is met without a value attached is *open*: it may still get one from the next argument.
It is stored, with or without, when the next switch, setting or entry is met, or at the end; only then
does it show that its value is missing or that it was given before. An argument that nothing is known
about is refused at once, so it comes before a fault of an open setting.
-/

namespace Wasmline.Command

/-- An option without a value. -/
inductive Switch where
  | validate
  | optimize
  | noTreeShaking
  | noDebug
  | verbose
  | help
  | version
  deriving DecidableEq, Repr

/-- An option with a value. -/
inductive Setting where
  | outFile
  | binaryFile
  | textFile
  | asmjsFile
  | trapMode
  deriving DecidableEq, Repr

/-- The switch's long name. -/
def Switch.name : Switch → String
  | validate => "validate"
  | optimize => "optimize"
  | noTreeShaking => "noTreeShaking"
  | noDebug => "noDebug"
  | verbose => "verbose"
  | help => "help"
  | version => "version"

/-- The setting's long name. -/
def Setting.name : Setting → String
  | outFile => "outFile"
  | binaryFile => "binaryFile"
  | textFile => "textFile"
  | asmjsFile => "asmjsFile"
  | trapMode => "trapMode"

/-- The setting cannot do without a value. -/
def Setting.needsValue : Setting → Bool
  | trapMode => true
  | _ => false

/-- How a setting's value is shown. -/
def Setting.valueName (s : Setting) : String :=
  if s.needsValue then "<MODE>" else "[<FILE>]"

/-- An option of the command line. -/
inductive Opt where
  | switch (s : Switch)
  | setting (s : Setting)
  deriving DecidableEq, Repr

/-- The option as it is shown. -/
def Opt.display : Opt → String
  | switch s => "--" ++ s.name
  | setting s => "--" ++ s.name ++ " " ++ s.valueName

/-- All options. -/
def Opt.all : List Opt :=
  [Switch.validate, .optimize, .noTreeShaking, .noDebug, .verbose, .help, .version].map .switch ++
    [Setting.outFile, .binaryFile, .textFile, .asmjsFile, .trapMode].map .setting

/-- The option's long name. -/
def Opt.name : Opt → String
  | switch s => s.name
  | setting s => s.name

/-- The option of a long name. -/
def Opt.ofName? (name : String) : Option Opt :=
  all.find? fun o => o.name == name

/-- The option of a short name. -/
def Opt.ofShort? : Char → Option Opt
  | 'o' => some (.setting .outFile)
  | 'b' => some (.setting .binaryFile)
  | 't' => some (.setting .textFile)
  | 'a' => some (.setting .asmjsFile)
  | 'c' => some (.switch .validate)
  | 'O' => some (.switch .optimize)
  | 'v' => some (.switch .verbose)
  | 'h' => some (.switch .help)
  | 'V' => some (.switch .version)
  | _ => none

/-- What is wrong with a command line. -/
inductive UsageError where
  | missingEntry
  | unexpectedArgument (arg : String)
  | missingValue (s : Setting)
  | unexpectedValue (value : String) (s : Switch)
  | repeated (o : Opt)
  deriving DecidableEq, Repr

/-- The usage error in words. Of an argument it quotes what is visible. -/
def UsageError.message : UsageError → String
  | missingEntry => "the following required arguments were not provided:"
  | unexpectedArgument arg => "unexpected argument '" ++ Text.visible arg ++ "' found"
  | missingValue s =>
    "a value is required for '" ++ (Opt.setting s).display ++ "' but none was supplied"
  | unexpectedValue value s =>
    "unexpected value '" ++ Text.visible value ++ "' for '" ++ (Opt.switch s).display ++
      "' found; no more were expected"
  | repeated o => "the argument '" ++ o.display ++ "' cannot be used multiple times"

/-- What ends the reading of a command line early. -/
inductive Early where
  | help
  | version
  | refused (error : UsageError)
  deriving DecidableEq, Repr

/-- What has been read of a command line. -/
structure Parsed where
  entry : Option String
  switches : List Switch
  settings : List (Setting × String)
  /-- The setting that was met last and is not stored yet, with its value if it has one. -/
  openSetting : Option (Setting × Option String)
  /-- The options have ended. -/
  ended : Bool
  deriving DecidableEq, Repr

namespace Parsed

/-- Nothing has been read. -/
def empty : Parsed :=
  ⟨none, [], [], none, false⟩

/-- Stores a setting, which must not have been given before. -/
def store (p : Parsed) (s : Setting) (value : String) : Except Early Parsed :=
  if (p.settings.lookup s).isSome then .error (.refused (.repeated (.setting s)))
  else .ok { p with settings := p.settings ++ [(s, value)] }

/-- Stores the open setting, if there is one. -/
def close (p : Parsed) : Except Early Parsed :=
  match p.openSetting with
  | none => .ok p
  | some (s, none) =>
    if s.needsValue then .error (.refused (.missingValue s))
    else store { p with openSetting := none } s ""
  | some (s, some value) => store { p with openSetting := none } s value

/-- A switch is met. -/
def readSwitch (p : Parsed) (s : Switch) : Except Early Parsed := do
  let p ← p.close
  match s with
  | .help => throw .help
  | .version => throw .version
  | s =>
    if s ∈ p.switches then
      throw (.refused (.repeated (.switch s)))
    return { p with switches := p.switches ++ [s] }

/-- A setting is met, with its value if that is attached. -/
def readSetting (p : Parsed) (s : Setting) (value : Option String) : Except Early Parsed := do
  let p ← p.close
  match value with
  | some value => p.store s value
  | none => return { p with openSetting := some (s, none) }

/-- An argument that is no option is met where none belongs to an open setting. -/
def readEntry (p : Parsed) (arg : String) : Except Early Parsed := do
  if p.entry.isSome then
    throw (.refused (.unexpectedArgument arg))
  let p ← p.close
  return { p with entry := some arg }

/-- A long option is met: the text behind its two dashes. -/
def readLong (p : Parsed) (text : List Char) : Except Early Parsed :=
  let name := String.ofList (text.takeWhile (· ≠ '='))
  let value := match text.dropWhile (· ≠ '=') with
    | [] => none
    | _ :: value => some (String.ofList value)
  match Opt.ofName? name, value with
  | none, _ => .error (.refused (.unexpectedArgument ("--" ++ name)))
  | some (.setting s), value => p.readSetting s value
  | some (.switch s), some value => .error (.refused (.unexpectedValue value s))
  | some (.switch s), none => p.readSwitch s

/-- Short options are met: the text behind their dash. -/
def readShort (p : Parsed) : List Char → Except Early Parsed
  | [] => .ok p
  | c :: rest =>
    match Opt.ofShort? c with
    | none => .error (.refused (.unexpectedArgument ("-" ++ String.singleton c)))
    | some (.switch s) =>
      match p.readSwitch s with
      | .ok p => p.readShort rest
      | .error early => .error early
    | some (.setting s) =>
      match rest with
      | [] => p.readSetting s none
      | '=' :: value => p.readSetting s (some (String.ofList value))
      | value => p.readSetting s (some (String.ofList value))

/-- One argument is met. -/
def readArg (p : Parsed) (arg : String) : Except Early Parsed :=
  if p.ended then p.readEntry arg
  else
    match arg.toList with
    | ['-', '-'] => .ok { p with ended := true }
    | '-' :: '-' :: text => p.readLong text
    | '-' :: c :: text => p.readShort (c :: text)
    | _ =>
      match p.openSetting with
      | some (s, none) => .ok { p with openSetting := some (s, some arg) }
      | _ => p.readEntry arg

/-- The value of a setting. -/
def setting? (p : Parsed) (s : Setting) : Option String :=
  p.settings.lookup s

/-- A switch was given. -/
def has (p : Parsed) (s : Switch) : Bool :=
  p.switches.contains s

end Parsed

/-- A command line that asks for a run. -/
structure Invocation where
  entry : String
  outputs : Outputs
  validate : Bool
  optimize : Bool
  noTreeShaking : Bool
  noDebug : Bool
  trapMode : Option String
  verbose : Bool
  deriving DecidableEq, Repr

/-- The run that has been asked for, once all arguments have been read. -/
def Parsed.invocation (p : Parsed) : Except Early Invocation := do
  let p ← p.close
  match p.entry with
  | none => throw (.refused .missingEntry)
  | some entry =>
    return {
      entry
      outputs := ⟨p.setting? .outFile, p.setting? .binaryFile, p.setting? .textFile,
        p.setting? .asmjsFile⟩
      validate := p.has .validate
      optimize := p.has .optimize
      noTreeShaking := p.has .noTreeShaking
      noDebug := p.has .noDebug
      trapMode := p.setting? .trapMode
      verbose := p.has .verbose }

/-- Reads a command line. -/
def readLine (args : List String) : Except Early Invocation := do
  let p ← args.foldlM Parsed.readArg Parsed.empty
  p.invocation

/-- The configuration that a command line asks for. -/
def Invocation.config (i : Invocation) : Config where
  entry := i.entry
  extension := Path.sourceExtension
  validate := i.validate
  optimize := i.optimize
  treeShaking := !i.noTreeShaking
  debugInfo := !i.noDebug
  trapMode := .ofFlag i.trapMode
  outputs := i.outputs

end Wasmline.Command
