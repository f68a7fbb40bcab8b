import Wasmline.Wasm.Check

/-!
# The text form of a program

The binary form printed as text: the type, the exports and the functions. With debug names a function
is referred to by its name behind a dollar sign, otherwise by its index. A name that cannot serve
because it is empty, taken by an earlier function or could be mistaken for a made-up one gets a
made-up identifier, and its own name is added where the function stands. An identifier with
characters that are not allowed in one is put in quotes.
-/

namespace Wasmline.Wasm

/-- A text as it stands between quotes: printable ASCII as it is, anything else by its code point. -/
def escape (s : List Char) : List Char :=
  s.flatMap fun c =>
    if 0x20 ≤ c.toNat && c.toNat ≤ 0x7e && c ≠ '"' && c ≠ '\\' then [c]
    else "\\u\x7b".toList ++ Nat.toDigits 16 c.toNat ++ ['\x7d']

/-- A text in quotes. -/
def quoted (s : String) : String :=
  "\"" ++ String.ofList (escape s.toList) ++ "\""

/-- A character that an identifier may hold without quotes. -/
def inIdentifier (c : Char) : Bool :=
  c.isAlphanum || "!#$%&'*+-./:<=>?@\\^_`|~".toList.contains c

/-- A function's name cannot be its identifier, given the names of the functions in front of it. -/
def needsIdentifier (earlier : List String) (name : String) : Bool :=
  name.isEmpty || name.toList.head? == some '#' || earlier.contains name

/-- The identifier of the function at an index, given the names of the functions in front of it. -/
def identifier (earlier : List String) (index : Nat) (name : String) : String :=
  if needsIdentifier earlier name then
    "$\"#func" ++ toString index ++ " " ++ String.ofList (escape name.toList) ++ "\""
  else if name.toList.all inIdentifier then "$" ++ name
  else "$" ++ quoted name

/-- How the function at an index is referred to. -/
def reference (p : Program) (index : Nat) : String :=
  if p.debugNames then
    match p.functions[index]? with
    | some f => identifier ((p.functions.take index).map Func.name) index f.name
    | none => toString index
  else toString index

/-- The head of the function at an index, up to its result type. -/
def printHead (p : Program) (index : Nat) (f : Func) : String :=
  let named :=
    if p.debugNames then
      " " ++ reference p index ++
        if needsIdentifier ((p.functions.take index).map Func.name) f.name then
          " (@name " ++ quoted f.name ++ ")"
        else ""
    else ""
  "  (func" ++ named ++ " (;" ++ toString index ++ ";) (type 0) (result i32)\n"

/-- The function at an index. -/
def printFunction (p : Program) (index : Nat) (f : Func) : String :=
  printHead p index f ++
    (match f.body with
    | .const value => "    i32.const " ++ toString value.toInt ++ "\n"
    | .call target => "    call " ++ reference p target ++ "\n") ++
    "  )\n"

/-- An export. -/
def printExport (p : Program) (e : String × Nat) : String :=
  "  (export " ++ quoted e.1 ++ " (func " ++ reference p e.2 ++ "))\n"

/-- The text form, whether or not the program is valid. -/
def print (p : Program) : String :=
  "(module\n  (type (;0;) (func (result i32)))\n" ++
    String.join ((namedExports p.functions).map (printExport p)) ++
    String.join (p.functions.mapIdx (printFunction p)) ++
    ")\n"

/-- The text form. The only binary form that cannot be printed is one with an over-long name of an
export. -/
def text (p : Program) : Except String String :=
  match longExport? .standard (firstExport p) (namedExports p.functions) with
  | some fault => .error ("failed to print module: " ++ fault.message)
  | none => .ok (print p)

end Wasmline.Wasm
