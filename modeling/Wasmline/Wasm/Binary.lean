import Wasmline.Program.Basic
import Wasmline.Text.Utf8
import Wasmline.Wasm.Leb128

/-!
# The binary form of a program

A header of eight bytes and then sections, each with its number and its size: the one function type,
the type of every function, the exports, the code of every function and, for a program with debug
names, a custom section `name` with the name of every function. Sections are written even when they
hold nothing.
-/

namespace Wasmline.Wasm

/-- The module magic and the version of the format. -/
def header : List UInt8 :=
  [0x00, 0x61, 0x73, 0x6d, 0x01, 0x00, 0x00, 0x00]

/-- Bytes behind their number. -/
def sized (bytes : List UInt8) : List UInt8 :=
  Leb128.unsigned bytes.length ++ bytes

/-- Items behind their number. -/
def vector (items : List (List UInt8)) : List UInt8 :=
  Leb128.unsigned items.length ++ items.flatten

/-- A section: its number, its size and its content. -/
def framed (id : UInt8) (content : List UInt8) : List UInt8 :=
  id :: sized content

/-- A name behind its size in bytes. -/
def nameBytes (name : String) : List UInt8 :=
  sized (Text.utf8 name.toList)

/-- The only type: no parameters and one 32-bit result. -/
def functionType : List UInt8 :=
  [0x60, 0x00, 0x01, 0x7f]

/-- The names and indices of the exported functions. -/
def namedExports (functions : List Func) : List (String × Nat) :=
  (exportsOf functions).map fun e => (e.1.name, e.2)

/-- An export of the function at an index. -/
def exportEntry (e : String × Nat) : List UInt8 :=
  nameBytes e.1 ++ 0x00 :: Leb128.unsigned e.2

/-- The instruction that leaves the function's result. -/
def instruction : Body → List UInt8
  | .const value => 0x41 :: Leb128.signed value.toInt
  | .call target => 0x10 :: Leb128.unsigned target

/-- The code of a function: no locals, its instruction and the end. -/
def code (f : Func) : List UInt8 :=
  sized (0x00 :: instruction f.body ++ [0x0b])

/-- The name of every function by its index. -/
def functionNames (functions : List Func) : List UInt8 :=
  vector (functions.zipIdx.map fun f => Leb128.unsigned f.2 ++ nameBytes f.1.name)

/-- The sections of a program's binary form in their order, each with its number and its content: the
types, the type of every function, the exports, the code of every function and, if wanted, the names of
the functions as a custom section. -/
def sections (p : Program) : List (UInt8 × List UInt8) :=
  [(1, vector [functionType]),
   (3, vector (p.functions.map fun _ => Leb128.unsigned 0)),
   (7, vector ((namedExports p.functions).map exportEntry)),
   (10, vector (p.functions.map code))] ++
  if p.debugNames then [(0, nameBytes "name" ++ framed 1 (functionNames p.functions))] else []

/-- The binary form of a program. -/
def encode (p : Program) : List UInt8 :=
  header ++ (sections p).flatMap fun s => framed s.1 s.2

end Wasmline.Wasm
