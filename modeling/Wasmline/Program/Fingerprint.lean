import Wasmline.Digest.Sha256
import Wasmline.Program.Basic
import Wasmline.Text.Utf8

/-!
# Fingerprints of programs

A program's fingerprint is the SHA-256 digest of what it consists of: for each function its name, a
byte for its export and its body in words, and then a byte for debug names. The passes that were run
do not count.
-/

namespace Wasmline

/-- A flag as a byte. -/
def flagByte (flag : Bool) : UInt8 :=
  if flag then 1 else 0

/-- A body in words. -/
def Body.describe : Body → String
  | const value => "Const(" ++ toString value.toInt ++ ")"
  | call target => "Call(" ++ toString target ++ ")"

/-- The bytes that a function adds to the digest. -/
def Func.hashInput (f : Func) : List UInt8 :=
  Text.utf8 f.name.toList ++ flagByte f.exported :: Text.utf8 f.body.describe.toList

namespace Program

/-- The bytes that a program's fingerprint is the digest of. -/
def hashInput (p : Program) : List UInt8 :=
  p.functions.flatMap Func.hashInput ++ [flagByte p.debugNames]

/-- The fingerprint in hexadecimal digits. -/
def fingerprint (p : Program) : String :=
  Digest.hex (Digest.sha256 p.hashInput)

end Program

end Wasmline
