import Wasmline.Source.File

/-!
# Why a run fails

Every way a run can end without a result is a value that names its cause; the wording is in
`IoFailure.message` and `Failure.message` and nowhere else.
-/

namespace Wasmline

/-- Why reading or writing did not work. -/
inductive IoFailure where
  | notFound
  | notADirectory
  | isADirectory
  | nameTooLong
  | nameWithNul
  | notUtf8
  | other (text : String)
  deriving DecidableEq, Repr

/-- The cause as the operating system words it. -/
def IoFailure.message : IoFailure → String
  | notFound => "No such file or directory (os error 2)"
  | notADirectory => "Not a directory (os error 20)"
  | isADirectory => "Is a directory (os error 21)"
  | nameTooLong => "File name too long (os error 36)"
  | nameWithNul => "file name contained an unexpected NUL byte"
  | notUtf8 => "stream did not contain valid UTF-8"
  | other text => text

/-- Why a run ended without a result. -/
inductive Failure where
  /-- No source file for a path; `file` is the name that was tried first. -/
  | fileNotFound (file : String) (origin : Origin)
  /-- The source texts have this many errors. -/
  | parsing (errors : Nat)
  /-- Compiling the parsed files gave this many errors. -/
  | compiling (errors : Nat)
  /-- The compiled module did not pass validation. -/
  | invalid
  /-- One view of the compiled module could not be written. -/
  | emit (format message : String)
  /-- Reporting or writing failed. -/
  | io (cause : IoFailure)
  deriving DecidableEq, Repr

/-- The failure in one line. -/
def Failure.message : Failure → String
  | fileNotFound file origin => origin.display ++ " '" ++ file ++ "' not found."
  | parsing errors => s!"parsing failed with {errors} error(s)"
  | compiling errors => s!"compilation failed with {errors} error(s)"
  | invalid => "validation failed"
  | emit format message => "failed to emit " ++ format ++ " output: " ++ message
  | io cause => "IO error: " ++ cause.message

/-- The exit code of a run that failed. -/
def Failure.exitCode (_ : Failure) : Nat := 1

end Wasmline
