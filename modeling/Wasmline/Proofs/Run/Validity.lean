import Wasmline.Proofs.Program.WellFormed
import Wasmline.Proofs.Run.Exactness
import Wasmline.Proofs.Run.Lifecycle

/-!
# The standard engine makes valid modules

The check of a binary form looks for two broken rules, a second export of one name and a call that leads
to no function, and keeps some limits. The rules cannot be broken by well-formed functions. Whether a
program keeps the limits is `Wasm.Within`; so a well-formed program is valid exactly if it is within them
(`isValid_iff_of_wellFormed`).

A run fails as invalid in no other place than at the check of what it compiled, which is behind both of
its reports (`run_eq_invalid_iff`). What the standard engine compiles is well formed, so such a run has
compiled a program that is beyond the limits. All of this holds for whatever limits a check keeps.
-/

namespace Wasmline

/-! ### What the check finds -/

namespace Wasm

/-- The program keeps the limits: on the bytes of its sections, on the numbers of its functions and
exports, on the size of the exported types and on the names of exports. -/
structure Within (limits : Limits) (p : Program) : Prop where
  sections : ∀ s ∈ sections p, s.2.length ≤ limits.sectionBytes
  functions : p.functions.length ≤ limits.functions
  exports : p.exportCount ≤ limits.exports
  types : limits.typeSizeOf p.exportCount < limits.typeSize
  names : ∀ f ∈ p.functions, f.exported = true → Text.utf8Size f.name.toList ≤ limits.nameBytes

variable {limits : Limits} {p : Program}

instance : Decidable (Within limits p) :=
  decidable_of_iff
    ((∀ s ∈ sections p, s.2.length ≤ limits.sectionBytes) ∧ p.functions.length ≤ limits.functions ∧
      p.exportCount ≤ limits.exports ∧ limits.typeSizeOf p.exportCount < limits.typeSize ∧
      ∀ f ∈ p.functions, f.exported = true → Text.utf8Size f.name.toList ≤ limits.nameBytes)
    ⟨fun ⟨hsections, hfunctions, hexports, htypes, hnames⟩ =>
        ⟨hsections, hfunctions, hexports, htypes, hnames⟩,
      fun h => ⟨h.sections, h.functions, h.exports, h.types, h.names⟩⟩

theorem longName?_eq_none_iff {offset : Nat} {name : String} :
    longName? limits offset name = none ↔ Text.utf8Size name.toList ≤ limits.nameBytes := by
  simp [longName?]

/-- Exporting nothing keeps the limit on types. -/
theorem Limits.typeSizeOf_zero_lt (limits : Limits) : limits.typeSizeOf 0 < limits.typeSize := by
  rw [typeSizeOf, Nat.zero_mul]
  exact limits.one_lt_typeSize

/-- More exports have types of a larger size. -/
theorem Limits.typeSizeOf_mono (limits : Limits) {m n : Nat} (h : m ≤ n) :
    limits.typeSizeOf m ≤ limits.typeSizeOf n :=
  Nat.add_le_add_left (Nat.mul_le_mul_right _ h) 1

/-- Exports behind others that keep the limit on types pass the check if their names and the size of all
types keep the limits, and the names are distinct and were not seen before. -/
theorem exportFault?_eq_none_iff {exports : List (String × Nat)} :
    {seen : List String} → {offset : Nat} → limits.typeSizeOf seen.length < limits.typeSize →
    (exportFault? limits seen offset exports = none ↔
      (∀ e ∈ exports, Text.utf8Size e.1.toList ≤ limits.nameBytes) ∧
        limits.typeSizeOf (seen.length + exports.length) < limits.typeSize ∧
        (exports.map Prod.fst).Nodup ∧ ∀ e ∈ exports, e.1 ∉ seen) := by
  induction exports with
  | nil =>
      intro seen offset hseen
      simp [exportFault?, hseen]
  | cons e es ih =>
      intro seen offset hseen
      unfold exportFault?
      cases hlong : longName? limits offset e.1 with
      | some fault =>
          have hunfit : ¬ Text.utf8Size e.1.toList ≤ limits.nameBytes := fun hfits =>
            nomatch hlong.symm.trans (longName?_eq_none_iff.mpr hfits)
          simp [hunfit]
      | none =>
          have hfits := longName?_eq_none_iff.mp hlong
          by_cases hlarge : limits.typeSize ≤ limits.typeSizeOf (seen.length + 1)
          · -- the types of all exports are larger still
            have hmore : seen.length + 1 ≤ seen.length + (e :: es).length := by
              rw [List.length_cons]
              omega
            refine iff_of_false (by simp [hlarge]) fun hkept => ?_
            exact Nat.not_lt.mpr (hlarge.trans (limits.typeSizeOf_mono hmore)) hkept.2.1
          · by_cases hknown : e.1 ∈ seen
            · simp [hlarge, hknown]
            · have hlength : seen.length + (e :: es).length = (e.1 :: seen).length + es.length := by
                rw [List.length_cons, List.length_cons]
                omega
              have hsmall : limits.typeSizeOf (e.1 :: seen).length < limits.typeSize :=
                Nat.lt_of_not_le hlarge
              rw [if_neg hlarge, if_neg hknown, ih hsmall, hlength]
              simp only [List.map_cons, List.nodup_cons, List.mem_cons, not_or, List.mem_map]
              grind

/-- Functions pass the check if their calls lead to functions. -/
theorem callFault?_eq_none_iff {count : Nat} {functions : List Func} : {offset : Nat} →
    (callFault? count offset functions = none ↔
      ∀ f ∈ functions, ∀ target, f.body = .call target → target < count) := by
  induction functions with
  | nil => simp [callFault?]
  | cons f fs ih =>
      intro offset
      unfold callFault?
      rcases hbody : f.body with value | target
      · simp [ih, hbody]
      · by_cases hlt : target < count
        · simp [hlt, ih, hbody]
        · simp [hlt, hbody]

/-- The functions that are exported, without their indices. -/
theorem map_fst_exportsOf (functions : List Func) :
    (exportsOf functions).map Prod.fst = functions.filter Func.exported := by
  conv_rhs => rw [← List.zipIdx_map_fst 0 functions, List.filter_map]
  rfl

theorem map_fst_namedExports (functions : List Func) :
    (namedExports functions).map Prod.fst = (functions.filter Func.exported).map Func.name := by
  rw [← map_fst_exportsOf, namedExports, List.map_map, List.map_map]
  rfl

theorem length_namedExports (p : Program) : (namedExports p.functions).length = p.exportCount := by
  have hlength := congrArg List.length (map_fst_namedExports p.functions)
  rwa [List.length_map, List.length_map, ← List.countP_eq_length_filter] at hlength

/-- The names of exports keep a limit if those of exported functions do. -/
theorem names_namedExports_iff {functions : List Func} {most : Nat} :
    (∀ e ∈ namedExports functions, Text.utf8Size e.1.toList ≤ most) ↔
      ∀ f ∈ functions, f.exported = true → Text.utf8Size f.name.toList ≤ most := by
  have hnames : (∀ e ∈ namedExports functions, Text.utf8Size e.1.toList ≤ most) ↔
      ∀ name ∈ (namedExports functions).map Prod.fst, Text.utf8Size name.toList ≤ most := by
    simp only [List.forall_mem_map]
  rw [hnames, map_fst_namedExports, List.forall_mem_map]
  simp only [List.mem_filter, and_imp]

/-- A section passes the check if it has not too many bytes and what it holds is without fault. -/
theorem sectionFault?_eq_none_iff {s : UInt8 × List UInt8} :
    sectionFault? limits p s = none ↔
      s.2.length ≤ limits.sectionBytes ∧ (s.1 = 3 → p.functions.length ≤ limits.functions) ∧
        (s.1 = 7 → p.exportCount ≤ limits.exports ∧
          exportFault? limits [] (firstExport p) (namedExports p.functions) = none) := by
  unfold sectionFault? countFault?
  rw [← length_namedExports]
  by_cases hsize : limits.sectionBytes < s.2.length
  · simp [hsize]
  · by_cases hfunctions : s.1 = 3
    · simp [hsize, hfunctions, Nat.le_of_not_lt hsize]
    · by_cases hexports : s.1 = 7
      · simp [hsize, hexports, Nat.le_of_not_lt hsize]
      · simp [hsize, hfunctions, hexports, Nat.le_of_not_lt hsize]

/-- The check passes exactly if the program is within the limits, exports have distinct names and calls
lead to functions. -/
theorem isValid_iff :
    isValid limits p = true ↔
      Within limits p ∧ ((namedExports p.functions).map Prod.fst).Nodup ∧
        ∀ f ∈ p.functions, ∀ target, f.body = .call target → target < p.functions.length := by
  unfold isValid fault?
  rw [Option.isNone_iff_eq_none, Option.or_eq_none_iff, List.findSome?_eq_none_iff,
    callFault?_eq_none_iff, ← and_assoc]
  refine and_congr_left' ?_
  simp only [sectionFault?_eq_none_iff]
  have hexports : exportFault? limits [] (firstExport p) (namedExports p.functions) = none ↔ _ :=
    exportFault?_eq_none_iff limits.typeSizeOf_zero_lt
  constructor
  · intro h
    obtain ⟨-, hfunctions, -⟩ := h (3, _) (List.mem_cons_of_mem _ List.mem_cons_self)
    obtain ⟨-, -, hheld⟩ :=
      h (7, _) (List.mem_cons_of_mem _ (List.mem_cons_of_mem _ List.mem_cons_self))
    obtain ⟨hcount, hfaultless⟩ := hheld rfl
    obtain ⟨hnames, htypes, hdistinct, -⟩ := hexports.mp hfaultless
    rw [List.length_nil, Nat.zero_add, length_namedExports] at htypes
    exact ⟨⟨fun s hs => (h s hs).1, hfunctions rfl, hcount, htypes,
      names_namedExports_iff.mp hnames⟩, hdistinct⟩
  · rintro ⟨h, hdistinct⟩ s hs
    have htypes := h.types
    rw [← length_namedExports, ← Nat.zero_add (namedExports p.functions).length] at htypes
    refine ⟨h.sections s hs, fun _ => h.functions, fun _ => ⟨h.exports, ?_⟩⟩
    exact hexports.mpr ⟨names_namedExports_iff.mpr h.names, htypes, hdistinct,
      fun _ _ => List.not_mem_nil⟩

/-- **A well-formed program is valid exactly if it is within the limits.** -/
theorem isValid_iff_of_wellFormed (h : WellFormed p.functions) :
    isValid limits p = true ↔ Within limits p := by
  have hdistinct : ((namedExports p.functions).map Prod.fst).Nodup := by
    rw [map_fst_namedExports]
    exact h.names.sublist ((List.filter_sublist).map Func.name)
  rw [isValid_iff]
  exact ⟨fun hvalid => hvalid.1, fun hwithin => ⟨hwithin, hdistinct, h.calls⟩⟩

end Wasm

/-! ### Where a run can fail as invalid -/

section Run

variable {loader : Loader} {sink : Sink} {stream : ErrorStream} {limit : Nat} {config : Config}
  {colorize : Bool}

/-- What is no gate is not the first that fails. -/
theorem findSome?_ne_of_notMem {gates : List (Option Halt)} {halt : Halt} (h : some halt ∉ gates) :
    gates.findSome? id ≠ some halt := by
  intro hfirst
  obtain ⟨gate, hmem, hsame⟩ := List.exists_of_findSome?_eq_some hfirst
  exact h (hsame ▸ hmem)

/-- The first gate that fails is behind gates which it is not among exactly if none of them fails. -/
theorem findSome?_append_eq_some_iff_of_notMem {gates gates' : List (Option Halt)} {halt : Halt}
    (h : some halt ∉ gates) :
    (gates ++ gates').findSome? id = some halt ↔
      gates.findSome? id = none ∧ gates'.findSome? id = some halt := by
  have hne := findSome?_ne_of_notMem h
  rw [List.findSome?_append]
  cases hfirst : gates.findSome? id with
  | none => simp
  | some other => simpa [hfirst] using hne

/-- Looking for files does not fail as invalid. -/
theorem discover_ne_invalid {engine : Engine} {extension entry : String} :
    (discover engine loader extension entry limit).result ≠ .error (.failure .invalid) := by
  intro hfailed
  rw [discover_eq] at hfailed
  cases hfound : locate loader extension entry with
  | none =>
      rw [Work.bind_of_error (result_resolve_of_locate_none hfound .entry)] at hfailed
      exact nomatch hfailed
  | some file =>
      rw [Work.bind_of_ok (result_resolve_of_locate hfound .entry)] at hfailed
      rcases discoverFrom_eq_error hfailed with hunfinished | ⟨before, path, -, -, hmissed, -⟩
      · exact nomatch hunfinished
      · exact nomatch hmissed

/-- The gates of a report are passed exactly if the work on it is. -/
theorem reportGates_eq_none_iff {tooMany : Nat → Failure} {format : Diagnostic → String}
    {queue : List Diagnostic} :
    (reportGates tooMany queue (drain format stream queue)).findSome? id = none ↔
      ((drain format stream queue).gate tooMany).result = .ok () := by
  rw [← Work.halt?_eq_none_iff, halt?_gate_drain]

/-- A report does not fail as invalid. -/
theorem invalid_notMem_reportGates {tooMany : Nat → Failure} (h : ∀ n, tooMany n ≠ .invalid)
    (queue : List Diagnostic) (report : Drained) :
    some (.failure .invalid) ∉ reportGates tooMany queue report := by
  intro hmem
  rcases List.mem_pair.mp hmem with hio | herrors
  · cases hfailed : report.failure <;> simp [hfailed] at hio
  · split at herrors
    · exact h _ (Halt.failure.inj (Option.some.inj herrors)).symm
    · exact nomatch herrors

/-- A write does not fail as invalid. -/
theorem invalid_notMem_writeGates (sink : Sink) (writes : List Write) :
    some (.failure .invalid) ∉ writeGates sink writes := by
  intro hmem
  obtain ⟨i, hi, hgate⟩ := List.mem_mapIdx.mp hmem
  obtain ⟨cause, -, hsame⟩ := Option.map_eq_some_iff.mp hgate
  exact nomatch hsame

variable {limits : Wasm.Limits}

/-- No view of a program fails as invalid. -/
theorem viewGate_ne_invalid (p : Program) (emission : Emission) :
    viewGate (Engine.checking limits) p emission ≠ some (.failure .invalid) := by
  intro hfailed
  unfold viewGate at hfailed
  split at hfailed
  · exact absurd hfailed.symm (Option.some_ne_none _)
  · rename_i failure hview
    obtain rfl : failure = .invalid := Halt.failure.inj (Option.some.inj hfailed)
    change p.view emission.format = .error .invalid at hview
    unfold Program.view at hview
    split at hview
    · cases hview
    · split at hview <;> cases hview
    · cases hview

/-- The work on a program fails as invalid exactly if the check is wanted and finds a fault. -/
theorem useGates_eq_invalid_iff (p : Program) :
    (useGates (Engine.checking limits) sink config p).findSome? id = some (.failure .invalid) ↔
      config.validate = true ∧ Wasm.isValid limits p = false := by
  have hlater : ∀ q : Program, some (.failure .invalid) ∉
      config.outputs.plan.map (viewGate (Engine.checking limits) q) ++
        writeGates sink (config.outputs.plan.filterMap (viewWrite? (Engine.checking limits) q)) := by
    intro q hmem
    rcases List.mem_append.mp hmem with hview | hwrite
    · obtain ⟨emission, -, hview⟩ := List.mem_map.mp hview
      exact viewGate_ne_invalid q emission hview
    · exact invalid_notMem_writeGates sink _ hwrite
  have hchecked : stageGate (Engine.checking limits) config p =
      if config.validate && !Wasm.isValid limits p then some (.failure .invalid) else none := rfl
  have hne := findSome?_ne_of_notMem (hlater (staged (Engine.checking limits) config p))
  unfold useGates
  rw [List.findSome?_append, hchecked]
  generalize List.findSome? id (_ ++ writeGates _ _) = last at hne ⊢
  cases config.validate <;> cases Wasm.isValid limits p <;> simp [hne]

/-- The files of a run were all found, and both of its reports on them were passed: the error stream took
them, and no error was in them. -/
structure CompilesClean (engine : Engine) (loader : Loader) (stream : ErrorStream) (limit : Nat)
    (config : Config) (colorize : Bool) (gathered : Gathered engine) : Prop where
  found : (discover engine loader config.extension config.entry limit).result = .ok gathered
  parsed : ((parseReport engine stream colorize gathered.session).gate .parsing).result = .ok ()
  compiled :
    ((compileReport engine stream config colorize gathered.session).gate .compiling).result = .ok ()

/-- **A run fails as invalid exactly if it is to check what it compiled, gets to the check and finds a
fault.** -/
theorem run_eq_invalid_iff :
    (run (Engine.checking limits) loader sink stream limit config colorize).result =
        .error (.failure .invalid) ↔
      config.validate = true ∧
        ∃ gathered, CompilesClean (Engine.checking limits) loader stream limit config colorize gathered ∧
          Wasm.isValid limits
            (Lowered.ofFiles (Session.files gathered.session) config.options).program = false := by
  rw [← Work.halt?_eq_some_iff, halt?_run, gates]
  cases hfound : (discover (Engine.checking limits) loader config.extension config.entry
      limit).result with
  | error halt =>
      refine iff_of_false ?_ ?_
      · intro hfailed
        obtain rfl : halt = .failure .invalid := by simpa using hfailed
        exact discover_ne_invalid hfound
      · rintro ⟨-, gathered, hclean, -⟩
        cases hfound.symm.trans hclean.found
  | ok gathered =>
      have hparsing : ∀ n, Failure.parsing n ≠ .invalid := by simp
      have hcompiling : ∀ n, Failure.compiling n ≠ .invalid := by simp
      unfold gatesBehind
      rw [findSome?_append_eq_some_iff_of_notMem (invalid_notMem_reportGates hparsing _ _),
        findSome?_append_eq_some_iff_of_notMem (invalid_notMem_reportGates hcompiling _ _)]
      refine (and_congr reportGates_eq_none_iff (and_congr reportGates_eq_none_iff
        (useGates_eq_invalid_iff _))).trans ?_
      constructor
      · rintro ⟨hparsed, hcompiled, hchecked, hfault⟩
        exact ⟨hchecked, gathered, ⟨hfound, hparsed, hcompiled⟩, hfault⟩
      · rintro ⟨hchecked, other, hclean, hfault⟩
        obtain rfl := Except.ok.inj (hfound.symm.trans hclean.found)
        exact ⟨hclean.parsed, hclean.compiled, hchecked, hfault⟩

end Run

/-- **The standard engine makes valid modules.** Of any files, with errors in them or not, and under any
options,

* lowering makes functions with names of their own whose calls all lead to functions;
* every sequence of edits keeps functions so;
* whatever edits the program goes through, it is valid exactly if it is within the limits of the check;
* a run fails as invalid exactly if it is to check what it compiled, has passed both of its reports, and
  the program is beyond these limits. So a run whose program is within them never fails as invalid.

The limits may be any; the standard engine is that for `Limits.standard`. -/
theorem standard_engine_makes_valid_modules (limits : Wasm.Limits) (files : List ParsedFile)
    (options : CompileOptions) (edits : List Edit) (loader : Loader) (sink : Sink)
    (stream : ErrorStream) (limit : Nat) (config : Config) (colorize : Bool) :
    let program := (Lowered.ofFiles files options).program
    WellFormed program.functions ∧
      (∀ p : Program, WellFormed p.functions → WellFormed (p.transform edits).functions) ∧
      (Wasm.isValid limits (program.transform edits) = true ↔
        Wasm.Within limits (program.transform edits)) ∧
      ((run (Engine.checking limits) loader sink stream limit config colorize).result =
          .error (.failure .invalid) ↔
        config.validate = true ∧
          ∃ gathered,
            CompilesClean (Engine.checking limits) loader stream limit config colorize gathered ∧
            ¬ Wasm.Within limits
              (Lowered.ofFiles (Session.files gathered.session) config.options).program) := by
  intro program
  have hlowered : WellFormed program.functions := wellFormed_ofFiles files options
  refine ⟨hlowered, fun p h => h.transform edits,
    Wasm.isValid_iff_of_wellFormed (hlowered.transform edits), ?_⟩
  rw [run_eq_invalid_iff]
  refine and_congr_right fun _ => exists_congr fun gathered => and_congr_right fun _ => ?_
  rw [← Wasm.isValid_iff_of_wellFormed (wellFormed_ofFiles _ _), Bool.not_eq_true]

/-- A name that is declared twice, a function that calls itself and a call of a name that is not
declared. -/
def faultyText : String :=
  "export function f(): i32 \x7b return f(); \x7d\n" ++
  "function f(): i32 \x7b return 1; \x7d\n" ++
  "export function g(): i32 \x7b return h(); \x7d\n"

/-- The standard limits, with room for one function only. -/
def oneFunction : Wasm.Limits :=
  { Wasm.Limits.standard with functions := 1 }

/-- What is made of the text is valid all the same, unless there is room for one function only. A run on
it fails, but not as invalid, and a run on two functions without errors fails as invalid for want of
room. -/
theorem faultyText_makes_valid_module :
    let program := (Lowered.ofFiles [ParsedFile.parse "main" faultyText] ⟨false, true⟩).program
    let edits := [.retainReachable, .runPasses ["trap-mode-js", "unknown"], .optimize]
    let config : Config := ⟨"main", ".ts", true, true, true, true, .js, ⟨none, none, none, none⟩⟩
    let two := Loader.ofFiles [("main.ts", "export function f(): i32 \x7b return g(); \x7d\n" ++
      "export function g(): i32 \x7b return 2; \x7d\n")]
    WellFormed program.functions ∧ WellFormed (program.transform edits).functions ∧
      Wasm.isValid .standard (program.transform edits) = true ∧
      Wasm.isValid oneFunction (program.transform edits) = false ∧
      (run Engine.standard (.ofFiles [("main.ts", faultyText)]) (fun _ _ => none) ⟨none, .notFound, []⟩ 1
        config false).result ≠ .error (.failure .invalid) ∧
      ∃ gathered, CompilesClean (Engine.checking oneFunction) two ⟨none, .notFound, []⟩ 1 config false
          gathered ∧
        ¬ Wasm.Within oneFunction
          (Lowered.ofFiles (Session.files gathered.session) config.options).program := by
  intro program edits config two
  have hwithin : Wasm.Within .standard (program.transform edits) := by decide +kernel
  have hbeyond : ¬ Wasm.Within oneFunction (program.transform edits) := by decide +kernel
  have hcompiled : ((discover Engine.standard (.ofFiles [("main.ts", faultyText)]) ".ts" "main"
      1).result.toOption.map fun gathered => decide (Wasm.Within .standard
        (Lowered.ofFiles (Session.files gathered.session) config.options).program)) = some true := by
    decide +kernel
  have hinvalid : (run (Engine.checking oneFunction) two (fun _ _ => none) ⟨none, .notFound, []⟩ 1
      config false).result = .error (.failure .invalid) := by decide +kernel
  obtain ⟨hlowered, hedited, hvalid, hruns⟩ := standard_engine_makes_valid_modules .standard
    [ParsedFile.parse "main" faultyText] ⟨false, true⟩ edits (.ofFiles [("main.ts", faultyText)])
    (fun _ _ => none) ⟨none, .notFound, []⟩ 1 config false
  obtain ⟨-, -, hvalid', hruns'⟩ := standard_engine_makes_valid_modules oneFunction
    [ParsedFile.parse "main" faultyText] ⟨false, true⟩ edits two (fun _ _ => none)
    ⟨none, .notFound, []⟩ 1 config false
  refine ⟨hlowered, hedited program hlowered, hvalid.mpr hwithin, ?_, ?_, (hruns'.mp hinvalid).2⟩
  · exact Bool.eq_false_iff.mpr fun h => hbeyond (hvalid'.mp h)
  · intro hfailed
    obtain ⟨-, gathered, hclean, hnot⟩ := hruns.mp hfailed
    have hfound : (discover Engine.standard (.ofFiles [("main.ts", faultyText)]) ".ts" "main"
      1).result = .ok gathered := hclean.found
    rw [hfound] at hcompiled
    exact hnot (of_decide_eq_true (Option.some.inj hcompiled))

end Wasmline
