import Wasmline.Note
import Wasmline.Wasm.Binary

/-!
# Checking the binary form

The binary form of a program can break two rules of its format: two exports may have one name, and a
call may lead to no function. Besides, a check keeps limits (`Limits`): on the bytes of a section, on the
numbers of functions and exports, on the bytes of an export's name and on the size of all exported types
together.

The check reports what it meets first. It goes through the sections in the order of the bytes: a section
has a size, a number of items, and then the items. What functions call is looked at when the last section
has been read. A fault comes with its place: the last byte that counts of the size of a section that is
too large, the number of items if there are too many, the end of the length of an over-long name, the
start of an export entry whose name is taken or whose type is one too many, the opcode of a call.
-/

namespace Wasmline.Wasm

/-- The limits that a check keeps. -/
structure Limits where
  /-- The most bytes that a section may have. -/
  sectionBytes : Nat
  /-- The most functions. -/
  functions : Nat
  /-- The most exports. -/
  exports : Nat
  /-- The most bytes that the name of an export may have. -/
  nameBytes : Nat
  /-- The size of all exported types together stays below this. -/
  typeSize : Nat
  /-- What the type of an exported function adds to that size. -/
  exportSize : Nat
  /-- Exporting nothing has the size one, and keeps the limit. -/
  one_lt_typeSize : 1 < typeSize
  deriving DecidableEq, Repr

/-- The limits of the standard check. -/
def Limits.standard : Limits where
  sectionBytes := 4294967295
  functions := 1000000
  exports := 1000000
  nameBytes := 100000
  typeSize := 1000000
  exportSize := 2
  one_lt_typeSize := by decide

/-- The size of the types of this many exported functions. -/
def Limits.typeSizeOf (limits : Limits) (count : Nat) : Nat :=
  1 + count * limits.exportSize

/-- A rule that is broken or a limit that is not kept. -/
inductive Defect where
  | sectionTooLarge
  /-- There are more than so many items of a kind. -/
  | tooMany (items : String) (most : Nat)
  | nameTooLong
  | typesTooLarge (limit : Nat)
  | duplicateExport (name : String)
  | unknownFunction (target : Nat)
  deriving DecidableEq, Repr

/-- A defect, and the number of bytes in front of the place where it shows. -/
structure Fault where
  defect : Defect
  offset : Nat
  deriving DecidableEq, Repr

/-- A defect in words. -/
def Defect.message : Defect → String
  | sectionTooLarge => "invalid var_u32: integer too large"
  | tooMany items most => s!"{items} count exceeds limit of {most}"
  | nameTooLong => "string size out of bounds"
  | typesTooLarge limit => s!"effective type size exceeds the limit of {limit}"
  | duplicateExport name => "duplicate export name `" ++ name ++ "` already defined"
  | unknownFunction target => s!"unknown function {target}: function index out of bounds"

/-- The fault in words, with its offset in hexadecimal. -/
def Fault.message (f : Fault) : String :=
  f.defect.message ++ " (at offset 0x" ++ String.ofList (Nat.toDigits 16 f.offset) ++ ")"

/-! ### Offsets -/

/-- The offset of the section with a number. -/
def sectionStart (p : Program) (id : UInt8) : Nat :=
  (header ++ ((sections p).takeWhile fun s => s.1 != id).flatMap fun s => framed s.1 s.2).length

/-- The offset of the content of a section, which is the number of its items. -/
def contentStart (p : Program) (id : UInt8) (content : List UInt8) : Nat :=
  sectionStart p id + 1 + (Leb128.unsigned content.length).length

/-- The offset of the first item of a section. -/
def firstItem (p : Program) (id : UInt8) (items : List (List UInt8)) : Nat :=
  contentStart p id (vector items) + (Leb128.unsigned items.length).length

/-- The offset of the first export. -/
def firstExport (p : Program) : Nat :=
  firstItem p 7 ((namedExports p.functions).map exportEntry)

/-- The offset of the code of the first function. -/
def firstCode (p : Program) : Nat :=
  firstItem p 10 (p.functions.map code)

/-! ### Faults -/

section Faults

variable (limits : Limits)

/-- The fault of an export entry at an offset whose name is too long. -/
def longName? (offset : Nat) (name : String) : Option Fault :=
  let size := Text.utf8Size name.toList
  if limits.nameBytes < size then
    some ⟨.nameTooLong, offset + (Leb128.unsigned size).length - 1⟩
  else none

/-- The first fault of the exports, the first of which starts at an offset; `seen` holds the names
in front of them. -/
def exportFault? (seen : List String) (offset : Nat) : List (String × Nat) → Option Fault
  | [] => none
  | e :: es =>
    match longName? limits offset e.1 with
    | some fault => some fault
    | none =>
      if limits.typeSize ≤ limits.typeSizeOf (seen.length + 1) then
        some ⟨.typesTooLarge limits.typeSize, offset⟩
      else if e.1 ∈ seen then some ⟨.duplicateExport e.1, offset⟩
      else exportFault? (e.1 :: seen) (offset + (exportEntry e).length) es

/-- The first export whose name is too long; the first export starts at an offset. -/
def longExport? (offset : Nat) : List (String × Nat) → Option Fault
  | [] => none
  | e :: es =>
    match longName? limits offset e.1 with
    | some fault => some fault
    | none => longExport? (offset + (exportEntry e).length) es

/-- The first call among the functions that leads to none of `count` functions; the code of the first
starts at an offset. -/
def callFault? (count offset : Nat) : List Func → Option Fault
  | [] => none
  | f :: fs =>
    match f.body with
    | .call target =>
      if target < count then callFault? count (offset + (code f).length) fs
      else
        let bodySize := (instruction f.body).length + 2
        some ⟨.unknownFunction target, offset + (Leb128.unsigned bodySize).length + 1⟩
    | .const _ => callFault? count (offset + (code f).length) fs

/-- The fault of a section with more than `most` items. -/
def countFault? (p : Program) (id : UInt8) (content : List UInt8) (items : String)
    (most count : Nat) : Option Fault :=
  if most < count then some ⟨.tooMany items most, contentStart p id content⟩ else none

/-- The first fault of a section, without what functions call. -/
def sectionFault? (p : Program) (s : UInt8 × List UInt8) : Option Fault :=
  if limits.sectionBytes < s.2.length then
    -- a size of more than 32 bits shows in its fifth byte
    some ⟨.sectionTooLarge, sectionStart p s.1 + 5⟩
  else if s.1 = 3 then
    countFault? p s.1 s.2 "functions" limits.functions p.functions.length
  else if s.1 = 7 then
    let exports := namedExports p.functions
    (countFault? p s.1 s.2 "exports" limits.exports exports.length).or
      (exportFault? limits [] (firstExport p) exports)
  else none

/-- The first fault of the binary form of a program. -/
def fault? (p : Program) : Option Fault :=
  ((sections p).findSome? (sectionFault? limits p)).or
    (callFault? p.functions.length (firstCode p) p.functions)

/-- A fault as the check words it. -/
def Fault.invalid (f : Fault) : String :=
  "invalid module: " ++ f.message

/-- The binary form of the program has no fault. -/
def isValid (p : Program) : Bool :=
  (fault? limits p).isNone

/-- What is noted when a program is checked. -/
def validationNotes (p : Program) : List Note :=
  match fault? limits p with
  | some fault => [⟨.warn, .artifact, "Module validation failed: " ++ fault.invalid⟩]
  | none => []

end Faults

end Wasmline.Wasm
