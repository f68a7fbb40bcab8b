import Wasmline.Diagnostic.Basic

/-!
# Findings

What can be wrong with a source text or with the program its files make up. A finding is a cause;
`Finding.code`, `Finding.severity` and `Finding.message` give it its words, and `Finding.diagnose`
makes it a diagnostic at a place.
-/

namespace Wasmline

/-- Something to report about source texts. -/
inductive Finding where
  /-- A line that is no declaration. -/
  | statementExpected
  /-- A function body that is neither an integer nor a call. -/
  | expressionExpected
  /-- An integer outside the 32-bit range, or one in digits that are not ASCII. -/
  | literalTooWide (literal : String)
  /-- A file with nothing in it. -/
  | noDeclarations (file : String)
  /-- A second function of one name. -/
  | duplicateFunction (name : String)
  /-- A call of a function that no file declares. -/
  | unknownName (name : String)
  /-- A function that is neither exported nor called. -/
  | unusedFunction (name : String)
  deriving DecidableEq, Repr

namespace Finding

/-- How grave a finding is. -/
def severity : Finding → Severity
  | noDeclarations _ => .info
  | unusedFunction _ => .warning
  | _ => .error

/-- The code a finding is listed under. -/
def code : Finding → String
  | statementExpected => "TS1128"
  | expressionExpected => "TS1109"
  | literalTooWide _ => "TS1006"
  | noDeclarations _ => "TS1010"
  | duplicateFunction _ => "TS2300"
  | unknownName _ => "TS2304"
  | unusedFunction _ => "TS6133"

/-- The finding in words. -/
def message : Finding → String
  | statementExpected => "Declaration or statement expected."
  | expressionExpected => "Expression expected."
  | literalTooWide literal => "Literal '" ++ literal ++ "' does not fit in an i32."
  | noDeclarations file => "'" ++ file ++ "' contains no declarations."
  | duplicateFunction name => "Duplicate function implementation '" ++ name ++ "'."
  | unknownName name => "Cannot find name '" ++ name ++ "'."
  | unusedFunction name => "'" ++ name ++ "' is declared but its value is never read."

/-- The diagnostic that reports a finding at a place. -/
def diagnose (finding : Finding) (location : Location) : Diagnostic where
  severity := finding.severity
  code := finding.code
  message := finding.message
  location := some location

end Finding

end Wasmline
