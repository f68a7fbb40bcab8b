import Wasmline.Proofs.Program.CallChain
import Wasmline.Proofs.Wasm.Reading

/-!
# Decoding binaries

`decode` reads the binary format of modules as far as programs use it: the header, the sections with
function types, functions, exports and code in their order, and the custom section `name`. It knows
nothing of programs or of how they are written: any value type may stand in a type, any kind of thing
may be exported, code may have locals and any number of the two instructions, and numbers may be longer
than they need to be. It refuses other sections and instructions, and passes over custom sections of
another name.

`decode_encode_faithful` says what it finds in the binary form of a program. Nothing of the functions
is lost there, provided that their names are written.
-/

namespace Wasmline.Wasm

/-! ### What a binary holds -/

inductive ValType where
  | i32 | i64 | f32 | f64
  deriving DecidableEq, Repr

structure FuncType where
  params : List ValType
  results : List ValType
  deriving DecidableEq, Repr

inductive ExportKind where
  | func | table | memory | global
  deriving DecidableEq, Repr

structure Export where
  name : String
  kind : ExportKind
  index : Nat
  deriving DecidableEq, Repr

/-- The code of a function: runs of locals of one type, and its instructions. -/
structure Code where
  locals : List (Nat × ValType)
  instructions : List Body
  deriving DecidableEq, Repr

structure Module where
  types : List FuncType
  /-- The type of every function, by its index among the types. -/
  functions : List Nat
  exports : List Export
  codes : List Code
  /-- The names of functions by index, if the binary has a list of them. -/
  functionNames : Option (List (Nat × String))
  deriving DecidableEq, Repr

/-! ### Reading it -/

namespace Read

variable {α β : Type}

def valType : Reader ValType := do
  match ← byte with
  | 0x7f => return .i32
  | 0x7e => return .i64
  | 0x7d => return .f32
  | 0x7c => return .f64
  | _ => failure

def funcType : Reader FuncType := do
  expect [0x60]
  let params ← vector valType
  let results ← vector valType
  return { params, results }

theorem reads_funcType : Reads funcType [0x60, 0x00, 0x01, 0x7f] ⟨[], [.i32]⟩ := by
  have hi32 : Reads valType [0x7f] .i32 := (reads_byte 0x7f).bind (Reads.pure ValType.i32)
  have hresults : Reads (vector valType) [0x01, 0x7f] [.i32] := by
    have hone : Reads u32 [0x01] 1 := reads_u32_of_lt (by decide)
    exact hone.bind (hi32.bind ((Reads.pure []).bind_pure (ValType.i32 :: ·)))
  exact (reads_expect [0x60]).bind
    ((reads_vector_nil valType).bind (hresults.bind_pure fun results => FuncType.mk [] results))

def exportKind : Reader ExportKind := do
  match ← byte with
  | 0x00 => return .func
  | 0x01 => return .table
  | 0x02 => return .memory
  | 0x03 => return .global
  | _ => failure

def exported : Reader Export := do
  let name ← name
  let kind ← exportKind
  let index ← u32
  return { name, kind, index }

theorem reads_exported {e : String × Nat} (hshort : Text.utf8Size e.1.toList < 2 ^ 32)
    (hfits : e.2 < 2 ^ 32) : Reads exported (exportEntry e) ⟨e.1, .func, e.2⟩ := by
  have hkind : Reads exportKind [0x00] .func := (reads_byte 0x00).bind (Reads.pure ExportKind.func)
  exact (reads_name hshort).bind (hkind.bind ((reads_u32 hfits).bind_pure (Export.mk e.1 .func)))

/-- A constant, or a call. -/
def instruction : Reader Body := do
  match ← byte with
  | 0x41 => return .const (← i32)
  | 0x10 => return .call (← u32)
  | _ => failure

theorem reads_instruction {body : Body} (hfits : ∀ target ∈ body.target?, target < 2 ^ 32) :
    Reads instruction (Wasm.instruction body) body := by
  cases body with
  | const value => exact (reads_byte 0x41).bind ((reads_i32 value).bind_pure Body.const)
  | call target => exact (reads_byte 0x10).bind ((reads_u32 (hfits target rfl)).bind_pure Body.call)

/-- Instructions up to the end of their block. -/
def instructions (bytes : List UInt8) : Option (List Body × List UInt8) :=
  match bytes with
  | 0x0b :: rest => some ([], rest)
  | bytes => do
    let (first, rest) ← instruction.run bytes
    if rest.length < bytes.length then
      let (others, rest) ← instructions rest
      return (first :: others, rest)
    else none
termination_by bytes.length

/-- No instruction starts with the byte that ends a block. -/
theorem instruction_eq_cons (body : Body) :
    ∃ opcode operand, Wasm.instruction body = opcode :: operand ∧ opcode ≠ 0x0b := by
  cases body with
  | const value => exact ⟨0x41, _, rfl, by decide⟩
  | call target => exact ⟨0x10, _, rfl, by decide⟩

theorem reads_instructions {body : Body} (hfits : ∀ target ∈ body.target?, target < 2 ^ 32) :
    Reads instructions (Wasm.instruction body ++ [0x0b]) [body] := by
  intro rest
  have hfirst := reads_instruction hfits (0x0b :: rest)
  have hlast : instructions (0x0b :: rest) = some ([], rest) := by rw [instructions]
  obtain ⟨opcode, operand, hform, hother⟩ := instruction_eq_cons body
  rw [hform, List.cons_append] at hfirst
  rw [hform, List.append_assoc, List.cons_append, List.cons_append, List.nil_append, StateT.run,
    instructions]
  · have hshorter : (0x0b :: rest).length < (opcode :: (operand ++ 0x0b :: rest)).length := by
      simp only [List.length_cons, List.length_append]
      omega
    simp only [hfirst, Option.bind_eq_bind, Option.bind_some, if_pos hshorter, hlast]
    rfl
  · rintro _ ⟨⟩
    exact hother rfl

def code : Reader Code := sized do
  let locals ← vector do
    let count ← u32
    let type ← valType
    return (count, type)
  let instructions ← (instructions : Reader (List Body))
  return { locals, instructions }

theorem reads_code {f : Func} (hfits : ∀ target ∈ f.body.target?, target < 2 ^ 32)
    (hsmall : (Wasm.code f).length < 2 ^ 32) : Reads code (Wasm.code f) ⟨[], [f.body]⟩ := by
  refine reads_sized ?_ (Nat.lt_of_le_of_lt (length_le_sized _) hsmall)
  exact (reads_vector_nil _).bind ((reads_instructions hfits).bind_pure (Code.mk []))

/-- A section: its number and its content. -/
def framed : Reader (UInt8 × List UInt8) := do
  let id ← byte
  let content ← chunk
  return (id, content)

theorem reads_framed {s : UInt8 × List UInt8} (hsmall : s.2.length < 2 ^ 32) :
    Reads framed (Wasm.framed s.1 s.2) s :=
  (reads_byte s.1).bind ((reads_chunk hsmall).bind_pure (s.1, ·))

theorem many_framed {sections : List (UInt8 × List UInt8)}
    (hsmall : ∀ s ∈ sections, s.2.length < 2 ^ 32) :
    many framed (sections.flatMap fun s => Wasm.framed s.1 s.2) = some sections := by
  have hread : many framed (sections.flatMap fun s => Wasm.framed s.1 s.2) =
      some (sections.map id) :=
    many_of_reads (fun s hmem => reads_framed (hsmall s hmem)) fun s _ => List.cons_ne_nil s.1 _
  rwa [List.map_id] at hread

/-- The name of the function at an index. -/
def functionName : Reader (Nat × String) := do
  let index ← u32
  let name ← name
  return (index, name)

theorem reads_functionName {f : Func × Nat} (hfits : f.2 < 2 ^ 32)
    (hshort : Text.utf8Size f.1.name.toList < 2 ^ 32) :
    Reads functionName (Leb128.unsigned f.2 ++ nameBytes f.1.name) (f.2, f.1.name) :=
  (reads_u32 hfits).bind ((reads_name hshort).bind_pure (f.2, ·))

/-- The items of the section with this number, none if it is missing. -/
def items (sections : List (UInt8 × List UInt8)) (id : UInt8) (read : Reader α) : Option (List α) :=
  match sections.lookup id with
  | none => some []
  | some content => whole (vector read) content

theorem items_of_lookup {sections : List (UInt8 × List UInt8)} {id : UInt8} {read : Reader α}
    {contents : List β} {write : β → List UInt8} {value : β → α}
    (hfound : sections.lookup id = some (Wasm.vector (contents.map write)))
    (h : ∀ content ∈ contents, Reads read (write content) (value content))
    (hfew : contents.length < 2 ^ 32) : items sections id read = some (contents.map value) := by
  rw [items, hfound]
  exact whole_of_reads (reads_vector h hfew)

/-- What a custom section of this title holds. -/
def custom? (title : String) (s : UInt8 × List UInt8) : Option (List UInt8) := do
  guard (s.1 = 0)
  let (found, content) ← name.run s.2
  guard (found = title)
  return content

theorem custom?_of_ne {title : String} {s : UInt8 × List UInt8} (hother : s.1 ≠ 0) :
    custom? title s = none := by
  simp [custom?, guard, hother]

theorem custom?_nameBytes {title : String} (hshort : Text.utf8Size title.toList < 2 ^ 32)
    (content : List UInt8) : custom? title (0, nameBytes title ++ content) = some content := by
  have hread := reads_name hshort content
  simp [custom?, guard, hread]

/-- The function names of the custom section `name`. -/
def functionNames (sections : List (UInt8 × List UInt8)) :
    Option (Option (List (Nat × String))) := do
  match sections.findSome? (custom? "name") with
  | none => return none
  | some content =>
    let parts ← many framed content
    match parts.lookup 1 with
    | none => return none
    | some names => return some (← whole (vector functionName) names)

end Read

/-- The sections that are not custom stand in the order of their numbers, each at most once, and there
are no others than these. -/
def inOrder (sections : List (UInt8 × List UInt8)) : Bool :=
  ((sections.map Prod.fst).filter (· ≠ 0)).isSublist [1, 3, 7, 10]

/-- What a binary holds, if it is one. -/
def decode (bytes : List UInt8) : Option Module := do
  let (_, body) ← (Read.expect header).run bytes
  let sections ← Read.many Read.framed body
  guard (inOrder sections)
  let types ← Read.items sections 1 Read.funcType
  let functions ← Read.items sections 3 Read.u32
  let exports ← Read.items sections 7 Read.exported
  let codes ← Read.items sections 10 Read.code
  guard (functions.length = codes.length)
  let functionNames ← Read.functionNames sections
  return { types, functions, exports, codes, functionNames }

/-! ### The sections of a program -/

/-- The counts, indices and sizes of a program can be written in 32 bits. -/
structure Encodable (p : Program) : Prop where
  functions : p.functions.length < 2 ^ 32
  names : ∀ f ∈ p.functions, Text.utf8Size f.name.toList < 2 ^ 32
  targets : ∀ f ∈ p.functions, ∀ target ∈ f.body.target?, target < 2 ^ 32
  sections : ∀ s ∈ sections p, s.2.length < 2 ^ 32

namespace Encodable

variable {p : Program}

theorem index_lt (hfits : Encodable p) {i : Nat} {f : Func} (h : p.functions[i]? = some f) :
    i < 2 ^ 32 := by
  obtain ⟨hinside, -⟩ := List.getElem?_eq_some_iff.mp h
  exact Nat.lt_trans hinside hfits.functions

theorem name_lt (hfits : Encodable p) {i : Nat} {f : Func} (h : p.functions[i]? = some f) :
    Text.utf8Size f.name.toList < 2 ^ 32 :=
  hfits.names f (List.mem_of_getElem? h)

end Encodable

/-- What the binary form of a program holds. -/
def Module.ofProgram (p : Program) : Module where
  types := [⟨[], [.i32]⟩]
  functions := List.replicate p.functions.length 0
  exports := (exportsOf p.functions).map fun e => ⟨e.1.name, .func, e.2⟩
  codes := p.functions.map fun f => ⟨[], [f.body]⟩
  functionNames :=
    if p.debugNames then some (p.functions.zipIdx.map fun f => (f.2, f.1.name)) else none

/-! ### Reading the sections of a program -/

theorem types_sections (p : Program) :
    Read.items (sections p) 1 Read.funcType = some (Module.ofProgram p).types := by
  have hfound : (sections p).lookup 1 =
      some (vector ([()].map fun _ => [0x60, 0x00, 0x01, 0x7f])) := rfl
  exact Read.items_of_lookup hfound (fun _ _ => Read.reads_funcType) (by decide)

section Sections

variable {p : Program} (hfits : Encodable p)
include hfits

theorem functions_sections :
    Read.items (sections p) 3 Read.u32 = some (Module.ofProgram p).functions := by
  rw [Module.ofProgram, ← List.map_const']
  exact Read.items_of_lookup rfl (fun _ _ => Read.reads_u32 (by decide)) hfits.functions

theorem exports_sections :
    Read.items (sections p) 7 Read.exported = some (Module.ofProgram p).exports := by
  have hfound : (sections p).lookup 7 = some (vector ((exportsOf p.functions).map
      fun e => exportEntry (e.1.name, e.2))) := by
    have hwritten : (sections p).lookup 7 =
      some (vector ((namedExports p.functions).map exportEntry)) := rfl
    rw [hwritten, namedExports, List.map_map]
    rfl
  have hfew : (exportsOf p.functions).length < 2 ^ 32 := by
    refine Nat.lt_of_le_of_lt (List.length_filter_le _ _) ?_
    rw [List.length_zipIdx]
    exact hfits.functions
  refine Read.items_of_lookup hfound ?_ hfew
  rintro ⟨f, i⟩ hmem
  have hhere := (mem_exportsOf.mp hmem).1
  exact Read.reads_exported (hfits.name_lt hhere) (hfits.index_lt hhere)

theorem codes_sections :
    Read.items (sections p) 10 Read.code = some (Module.ofProgram p).codes := by
  refine Read.items_of_lookup rfl ?_ hfits.functions
  intro f hmem
  have hcontent : (vector (p.functions.map code)).length < 2 ^ 32 :=
    hfits.sections (10, vector (p.functions.map code)) (by simp [sections])
  refine Read.reads_code (hfits.targets f hmem) (Nat.lt_of_le_of_lt ?_ hcontent)
  exact Read.length_le_vector (List.mem_map_of_mem hmem)

/-- The section of names gives the name of every function. -/
theorem functionNames_of_named (hnamed : p.debugNames = true) :
    Read.functionNames (sections p) =
      some (some (p.functions.zipIdx.map fun f => (f.2, f.1.name))) := by
  let names := functionNames p.functions
  have hsmall : names.length < 2 ^ 32 := by
    have hcontent :=
      hfits.sections (0, nameBytes "name" ++ framed 1 names) (by simp [sections, hnamed, names])
    have hinner := Read.length_le_sized names
    simp only [framed, List.length_append, List.length_cons] at hcontent
    omega
  have hfound : (sections p).findSome? (Read.custom? "name") = some (framed 1 names) := by
    have htitle : Read.custom? "name" (0, nameBytes "name" ++ framed 1 names) =
        some (framed 1 names) := Read.custom?_nameBytes (by decide) (framed 1 names)
    simp [sections, hnamed, Read.custom?_of_ne, htitle, names]
  have hparts : Read.many Read.framed (framed 1 names) = some [(1, names)] := by
    have hsingle : ∀ s ∈ [((1 : UInt8), names)], s.2.length < 2 ^ 32 := by simpa using hsmall
    simpa using Read.many_framed hsingle
  have hread : Read.whole (Read.vector Read.functionName) names =
      some (p.functions.zipIdx.map fun f => (f.2, f.1.name)) := by
    apply Read.whole_of_reads
    apply Read.reads_vector
    · rintro ⟨f, i⟩ hmem
      have hhere := List.mem_zipIdx_iff_getElem?.mp hmem
      exact Read.reads_functionName (hfits.index_lt hhere) (hfits.name_lt hhere)
    · rw [List.length_zipIdx]
      exact hfits.functions
  simp [Read.functionNames, hfound, hparts, hread]

theorem functionNames_sections :
    Read.functionNames (sections p) = some (Module.ofProgram p).functionNames := by
  by_cases hnamed : p.debugNames = true
  · rw [functionNames_of_named hfits hnamed, Module.ofProgram, if_pos hnamed]
  · have hmissing : (sections p).findSome? (Read.custom? "name") = none := by
      simp [sections, hnamed, Read.custom?_of_ne]
    simp [Read.functionNames, hmissing, Module.ofProgram, hnamed]

/-- The binary form of a program is read as what it holds. -/
theorem decode_encode : decode (encode p) = some (Module.ofProgram p) := by
  have hstart := Read.reads_expect header ((sections p).flatMap fun s => framed s.1 s.2)
  have hframing : Read.many Read.framed ((sections p).flatMap fun s => framed s.1 s.2) =
      some (sections p) := Read.many_framed hfits.sections
  have hordered : inOrder (sections p) = true := by
    cases hnamed : p.debugNames <;> simp [inOrder, sections, hnamed]
  have hcounts : (Module.ofProgram p).functions.length = (Module.ofProgram p).codes.length := by
    simp [Module.ofProgram]
  rw [encode, decode]
  simp [hstart, hframing, hordered, types_sections, functions_sections hfits, exports_sections hfits,
    codes_sections hfits, functionNames_sections hfits, hcounts, guard]

end Sections

/-! ### Nothing is lost -/

/-- A module tells which functions are exported. -/
theorem mem_exports_ofProgram {p : Program} {i : Nat} {f : Func} (hhere : p.functions[i]? = some f) :
    ⟨f.name, .func, i⟩ ∈ (Module.ofProgram p).exports ↔ f.exported = true := by
  constructor
  · intro hmem
    obtain ⟨⟨g, j⟩, hfound, hsame⟩ := List.mem_map.mp hmem
    obtain ⟨hthere, hexported⟩ := mem_exportsOf.mp hfound
    obtain ⟨-, rfl⟩ : g.name = f.name ∧ j = i := by simpa using hsame
    obtain rfl : g = f := by simpa [hhere] using hthere.symm
    exact hexported
  · intro hexported
    exact List.mem_map.mpr ⟨(f, i), mem_exportsOf.mpr ⟨hhere, hexported⟩, rfl⟩

/-- What a binary with names holds determines the functions. -/
theorem functions_eq_of_ofProgram_eq {p q : Program} (hnamed : p.debugNames = true)
    (hnamed' : q.debugNames = true) (hsame : Module.ofProgram p = Module.ofProgram q) :
    p.functions = q.functions := by
  have hnames := congrArg Module.functionNames hsame
  have hcodes := congrArg Module.codes hsame
  simp only [Module.ofProgram, hnamed, hnamed', if_true, Option.some.injEq] at hnames hcodes
  apply List.ext_getElem?
  intro i
  have hname := congrArg (·[i]?) hnames
  have hbody := congrArg (·[i]?) hcodes
  simp only [List.getElem?_map, List.getElem?_zipIdx, Option.map_map] at hname hbody
  cases hhere : p.functions[i]? with
  | none =>
      rw [hhere] at hbody
      exact (Option.map_eq_none_iff.mp hbody.symm).symm
  | some f =>
      obtain ⟨g, hthere, hsameBody⟩ := Option.map_eq_some_iff.mp (hhere ▸ hbody).symm
      have hsameName : f.name = g.name := by simpa [hhere, hthere] using hname
      have hsameExport : f.exported = g.exported := by
        rw [Bool.eq_iff_iff, ← mem_exports_ofProgram hhere, ← mem_exports_ofProgram hthere, hsame,
          hsameName]
      have hsameFunc : f = g := by
        cases f
        cases g
        simp_all
      rw [hthere, hsameFunc]

/-- The binary form of a program whose numbers fit is a binary of one type without parameters and with
one 32-bit result, in which every function has that type, the exported functions are exported under
their names in the order of their indices, and the code of a function is its body. It has the name of
every function if the program has debug names, and no list of names otherwise. With debug names, two
programs of the same binary form have the same functions. -/
theorem decode_encode_faithful (p : Program) (hfits : Encodable p) :
    (∃ m, decode (encode p) = some m ∧
      m.types = [⟨[], [.i32]⟩] ∧
      m.functions = List.replicate p.functions.length 0 ∧
      m.exports = (p.functions.zipIdx.filter fun f => f.1.exported).map
        (fun f => ⟨f.1.name, .func, f.2⟩) ∧
      m.codes = p.functions.map (fun f => ⟨[], [f.body]⟩) ∧
      m.functionNames =
        if p.debugNames then some (p.functions.zipIdx.map fun f => (f.2, f.1.name)) else none) ∧
    ∀ q, Encodable q → p.debugNames = true → q.debugNames = true → encode p = encode q →
      p.functions = q.functions := by
  refine ⟨⟨Module.ofProgram p, decode_encode hfits, rfl, rfl, rfl, rfl, rfl⟩, ?_⟩
  intro q hfits' hnamed hnamed' hequal
  have hsame : some (Module.ofProgram p) = some (Module.ofProgram q) := by
    rw [← decode_encode hfits, ← decode_encode hfits', hequal]
  exact functions_eq_of_ofProgram_eq hnamed hnamed' (Option.some.inj hsame)

/-- Two functions of one name, a call of a function that is not there, and the ends of the range of
constants. -/
def extremes : Program where
  functions :=
    [⟨"f", true, .const (-2147483648)⟩, ⟨"f", true, .call 4294967295⟩, ⟨"é", false, .const 2147483647⟩,
      ⟨"", false, .call 0⟩]
  debugNames := true
  appliedPasses := []

theorem encodable_extremes : Encodable extremes where
  functions := by decide
  names := by decide
  targets := by decide
  sections := by decide +kernel

theorem decode_encode_extremes :
    Encodable extremes ∧ decode (encode extremes) = some {
      types := [⟨[], [.i32]⟩]
      functions := [0, 0, 0, 0]
      exports := [⟨"f", .func, 0⟩, ⟨"f", .func, 1⟩]
      codes := [⟨[], [.const (-2147483648)]⟩, ⟨[], [.call 4294967295]⟩, ⟨[], [.const 2147483647]⟩,
        ⟨[], [.call 0]⟩]
      functionNames := some [(0, "f"), (1, "f"), (2, "é"), (3, "")] } := by
  refine ⟨encodable_extremes, ?_⟩
  obtain ⟨⟨⟨types, functions, exports, codes, functionNames⟩, hread, rfl, rfl, rfl, rfl, rfl⟩, -⟩ :=
    decode_encode_faithful extremes encodable_extremes
  exact hread

end Wasmline.Wasm
