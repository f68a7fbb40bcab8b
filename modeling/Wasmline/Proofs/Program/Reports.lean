import Wasmline.Proofs.Program.Algebra
import Wasmline.Proofs.Program.Lowering

/-!
# What is reported about declarations

The reports on some files can be read off the list of their declarations, in file order and then in
source order, with no thought of indices and links:

* an error for each declaration whose name is declared further in front (`repeatedDeclarations`), at
  the declaration;
* then an error for each other declaration (`firstDeclarations`) that calls a name which no file
  declares (`unknownCallee?`), at its body;
* then a warning for each first declaration that is not an export and that no first declaration calls
  (`isUnused`), at the declaration.

`diagnostics_exact` says that lowering reports this and nothing else, in this order. A repeated
declaration has no say in it: it calls nothing, and what it would have called may be unused.

A function that is reported as unused is not exported either, so no chain of calls from an export comes
to it: there is no call with which to get there (`not_needed_of_isUnused`). Dropping the unreachable
functions drops it.
-/

namespace Wasmline

/-! ### The reports, read off the declarations -/

/-- The declarations of the files, in file order and then in source order. -/
def declarations (files : List ParsedFile) : List Declaration :=
  files.flatMap ParsedFile.functions

/-- The declaration, which stands at this index, has a name that is declared further in front. -/
def declaredBefore (ds : List Declaration) (d : Declaration × Nat) : Bool :=
  (ds.take d.2).any fun e => e.name == d.1.name

/-- The declarations of a name that is declared further in front. -/
def repeatedDeclarations (ds : List Declaration) : List Declaration :=
  (ds.zipIdx.filter (declaredBefore ds)).map Prod.fst

/-- The first declarations of their names. -/
def firstDeclarations (ds : List Declaration) : List Declaration :=
  (ds.zipIdx.filter fun d => !declaredBefore ds d).map Prod.fst

/-- The name that a declaration calls, if it is declared nowhere. -/
def unknownCallee? (ds : List Declaration) (d : Declaration) : Option String :=
  match d.body with
  | .int _ => none
  | .call callee => if ds.any fun e => e.name == callee then none else some callee

/-- The function is not an export, and no first declaration calls it. -/
def isUnused (ds : List Declaration) (d : Declaration) : Bool :=
  !(d.exported || (firstDeclarations ds).any fun e => e.body == .call d.name)

/-- The error for a name that is taken. -/
def duplicateDiagnostic (d : Declaration) : Diagnostic where
  severity := .error
  code := "TS2300"
  message := "Duplicate function implementation '" ++ d.name ++ "'."
  location := some d.location

/-- The error for a call of a name that is declared nowhere. -/
def unknownDiagnostic (d : Declaration) (callee : String) : Diagnostic where
  severity := .error
  code := "TS2304"
  message := "Cannot find name '" ++ callee ++ "'."
  location := some d.bodyLocation

/-- The warning for a function that nothing uses. -/
def unusedDiagnostic (d : Declaration) : Diagnostic where
  severity := .warning
  code := "TS6133"
  message := "'" ++ d.name ++ "' is declared but its value is never read."
  location := some d.location

namespace Linked

/-! ### First and repeated declarations -/

/-- The declarations of the files are those that are linked. -/
theorem map_declaration_all (files : List ParsedFile) :
    (all files).map declaration = declarations files := by
  unfold declarations
  cases files with
  | nil => rfl
  | cons entry files =>
      rw [all_cons, List.map_append, List.map_map, List.map_flatMap, List.flatMap_cons]
      simp [Function.comp_def]

/-- Only what is declared as an export is exported. -/
theorem exported_of_mem_all {files : List ParsedFile} {d : Linked} (hd : d ∈ all files)
    (he : d.exported = true) : d.declaration.exported = true := by
  cases files with
  | nil => simp [all] at hd
  | cons entry files =>
      rw [all_cons] at hd
      rcases List.mem_append.mp hd with hd | hd
      · obtain ⟨decl, -, rfl⟩ := List.mem_map.mp hd
        exact he
      · obtain ⟨file, -, hd⟩ := List.mem_flatMap.mp hd
        obtain ⟨decl, -, rfl⟩ := List.mem_map.mp hd
        cases he

/-- If the names that were seen are those declared in `front`, the first and the repeated declarations
behind it are those of names that are not, or that are, declared further in front. -/
theorem map_declaration_firsts_repeats : (ds : List Linked) → (seen : List String) →
    (front : List Declaration) → (∀ name, name ∈ seen ↔ ∃ e ∈ front, e.name = name) →
      (firsts seen ds).map declaration =
          (((ds.map declaration).zipIdx front.length).filter fun d =>
            !declaredBefore (front ++ ds.map declaration) d).map Prod.fst ∧
        (repeats seen ds).map declaration =
          (((ds.map declaration).zipIdx front.length).filter
            (declaredBefore (front ++ ds.map declaration))).map Prod.fst
  | [], _, _, _ => ⟨rfl, rfl⟩
  | d :: ds, seen, front, hseen => by
      have hbefore : declaredBefore (front ++ (d :: ds).map declaration)
          (d.declaration, front.length) = decide (d.name ∈ seen) := by
        rw [declaredBefore, List.take_left' rfl, Bool.eq_iff_iff]
        simp [hseen, Linked.name]
      -- the others stand behind `front` and this declaration
      have hnext : ∀ name, name = d.name ∨ name ∈ seen ↔
          ∃ e ∈ front ++ [d.declaration], e.name = name := by
        intro name
        simp only [List.mem_append, List.mem_singleton, or_and_right, exists_or, exists_eq_left,
          ← hseen]
        rw [or_comm, eq_comm]
        rfl
      have hlen : front.length + 1 = (front ++ [d.declaration]).length := by simp
      simp only [List.map_cons, List.zipIdx_cons, List.filter_cons] at hbefore ⊢
      rw [hbefore]
      unfold firsts repeats
      by_cases hd : d.name ∈ seen
      · have ih := map_declaration_firsts_repeats ds seen _ fun name =>
          (or_iff_right_of_imp fun h => h ▸ hd).symm.trans (hnext name)
        rw [← hlen] at ih
        simp only [hd, decide_true, Bool.not_true]
        exact ⟨by simpa using ih.1, by simpa using ih.2⟩
      · have ih := map_declaration_firsts_repeats ds (d.name :: seen) _ fun name =>
          List.mem_cons.trans (hnext name)
        rw [← hlen] at ih
        simp only [hd, decide_false, Bool.not_false]
        exact ⟨by simpa using ih.1, by simpa using ih.2⟩

/-- The functions of a program are the first declarations. -/
theorem map_declaration_firsts (files : List ParsedFile) :
    (firsts [] (all files)).map declaration = firstDeclarations (declarations files) := by
  rw [(map_declaration_firsts_repeats (all files) [] [] (by simp)).1, List.nil_append,
    map_declaration_all]
  rfl

theorem map_declaration_repeats (files : List ParsedFile) :
    (repeats [] (all files)).map declaration = repeatedDeclarations (declarations files) := by
  rw [(map_declaration_firsts_repeats (all files) [] [] (by simp)).2, List.nil_append,
    map_declaration_all]
  rfl

/-- A name that is declared has a first declaration. -/
theorem mem_names_firsts (name : String) : (ds : List Linked) → (seen : List String) →
    (name ∈ (firsts seen ds).map Linked.name ∨ name ∈ seen ↔
      name ∈ ds.map Linked.name ∨ name ∈ seen)
  | [], _ => Iff.rfl
  | d :: ds, seen => by
      unfold firsts
      by_cases hd : d.name ∈ seen
      · rw [if_pos hd, mem_names_firsts name ds seen, List.map_cons, List.mem_cons]
        grind
      · have ih := mem_names_firsts name ds (d.name :: seen)
        rw [if_neg hd, List.map_cons, List.map_cons, List.mem_cons, List.mem_cons]
        grind

theorem mem_names_firsts_iff (files : List ParsedFile) (name : String) :
    name ∈ (firsts [] (all files)).map Linked.name ↔
      ∃ e ∈ declarations files, e.name = name := by
  have h := mem_names_firsts name (all files) []
  simp only [List.not_mem_nil, or_false] at h
  rw [h, ← map_declaration_all]
  simp [Linked.name]

/-! ### One report -/

theorem unknownReport?_eq {names : List String} {ds : List Declaration}
    (hnames : ∀ name, name ∈ names ↔ ∃ e ∈ ds, e.name = name) (d : Linked) :
    unknownReport? names d =
      (unknownCallee? ds d.declaration).map (unknownDiagnostic d.declaration) := by
  unfold unknownReport? unknownCallee?
  rcases d.declaration.body with value | callee
  · rfl
  · have hany : (ds.any fun e => e.name == callee) = decide (callee ∈ names) := by
      rw [Bool.eq_iff_iff]
      simp [hnames]
    simp only [hany]
    by_cases hcallee : callee ∈ names
    · simp [hcallee]
    · simp only [hcallee, if_false, decide_false, Bool.false_eq_true]
      rfl

/-- The index of a first declaration is called exactly if some first declaration calls its name. -/
theorem unusedReport?_eq {declared : List Linked} {ds : List Declaration} {d : Linked} {i : Nat}
    (hdeclared : declared.map declaration = firstDeclarations ds)
    (hnodup : (declared.map Linked.name).Nodup) (hd : declared[i]? = some d) :
    unusedReport? (calledIndices (linkAll declared)) (d, i) =
      if isUnused ds d.declaration then some (unusedDiagnostic d.declaration) else none := by
  have hcalled : (calledIndices (linkAll declared)).contains i =
      (firstDeclarations ds).any fun e => e.body == .call d.declaration.name := by
    rw [Bool.eq_iff_iff, List.contains_iff_mem, mem_calledIndices_linkAll_iff hnodup hd, ← hdeclared]
    simp [Linked.name]
  unfold unusedReport? isUnused
  rw [hcalled]
  generalize (d.declaration.exported || (firstDeclarations ds).any _) = used
  cases used <;> rfl

/-! ### All reports of a kind -/

section Reports

variable (files : List ParsedFile)

theorem map_duplicateReport :
    (repeats [] (all files)).map duplicateReport =
      (repeatedDeclarations (declarations files)).map duplicateDiagnostic := by
  rw [← map_declaration_repeats, List.map_map]
  rfl

theorem filterMap_unknownReport? :
    (firsts [] (all files)).filterMap (unknownReport? ((firsts [] (all files)).map Linked.name)) =
      (firstDeclarations (declarations files)).filterMap fun d =>
        (unknownCallee? (declarations files) d).map (unknownDiagnostic d) := by
  rw [← map_declaration_firsts, List.filterMap_map]
  exact List.filterMap_congr fun d _ => unknownReport?_eq (mem_names_firsts_iff files) d

theorem filterMap_unusedReport? :
    (firsts [] (all files)).zipIdx.filterMap
        (unusedReport? (calledIndices (linkAll (firsts [] (all files))))) =
      ((firstDeclarations (declarations files)).filter
        (isUnused (declarations files))).map unusedDiagnostic := by
  have hfirsts : (firsts [] (all files)).zipIdx.map (fun d => d.1.declaration) =
      firstDeclarations (declarations files) := by
    rw [← map_declaration_firsts, ← List.zipIdx_map_fst 0 (firsts [] (all files)), List.map_map]
    simp [Function.comp_def]
  rw [← List.filterMap_eq_map, List.filterMap_filter, ← hfirsts, List.filterMap_map]
  refine List.filterMap_congr ?_
  rintro ⟨d, i⟩ hd
  rw [List.mem_zipIdx_iff_getElem?] at hd
  exact unusedReport?_eq (map_declaration_firsts files) (nodup_names_firsts _) hd

/-- The reports on files, read off their declarations. -/
theorem reports_eq :
    Lowered.reports files =
      (repeatedDeclarations (declarations files)).map duplicateDiagnostic ++
        (firstDeclarations (declarations files)).filterMap (fun d =>
          (unknownCallee? (declarations files) d).map (unknownDiagnostic d)) ++
        ((firstDeclarations (declarations files)).filter
          (isUnused (declarations files))).map unusedDiagnostic := by
  rw [← map_duplicateReport, ← filterMap_unknownReport?, ← filterMap_unusedReport?]
  rfl

end Reports

/-- Whichever declarations are picked by their index, they are declarations. -/
theorem mem_of_mem_filter_zipIdx {ds : List Declaration} {p : Declaration × Nat → Bool}
    {d : Declaration} (h : d ∈ (ds.zipIdx.filter p).map Prod.fst) : d ∈ ds := by
  obtain ⟨⟨e, i⟩, hmember, rfl⟩ := List.mem_map.mp h
  exact List.fst_mem_of_mem_zipIdx (List.mem_of_mem_filter hmember)

/-- **Every report is about a declaration**, and is made where that stands or where its body does. -/
theorem exists_declaration_of_mem_reports {files : List ParsedFile} {r : Diagnostic}
    (h : r ∈ Lowered.reports files) :
    ∃ d ∈ declarations files,
      ((r.code = "TS2300" ∨ r.code = "TS6133") ∧ r.location = some d.location) ∨
        (r.code = "TS2304" ∧ r.location = some d.bodyLocation) := by
  rw [reports_eq, List.mem_append, List.mem_append] at h
  rcases h with (h | h) | h
  · obtain ⟨d, hmember, rfl⟩ := List.mem_map.mp h
    exact ⟨d, mem_of_mem_filter_zipIdx hmember, .inl ⟨.inl rfl, rfl⟩⟩
  · obtain ⟨d, hmember, hreported⟩ := List.mem_filterMap.mp h
    obtain ⟨callee, -, rfl⟩ := Option.map_eq_some_iff.mp hreported
    exact ⟨d, mem_of_mem_filter_zipIdx hmember, .inr ⟨rfl, rfl⟩⟩
  · obtain ⟨d, hmember, rfl⟩ := List.mem_map.mp h
    exact ⟨d, mem_of_mem_filter_zipIdx (List.mem_of_mem_filter hmember), .inl ⟨.inr rfl, rfl⟩⟩

/-! ### Unused functions -/

variable {files : List ParsedFile} {d : Linked} {i : Nat}

/-- No chain of calls from an export comes to a function that is reported as unused: it is no export
itself, and nothing calls it. -/
theorem not_needed_of_isUnused (hd : (firsts [] (all files))[i]? = some d)
    (hunused : isUnused (declarations files) d.declaration = true) :
    ¬ Needed (linkAll (firsts [] (all files))) i := by
  rw [isUnused, ← map_declaration_firsts, Bool.not_eq_true', Bool.or_eq_false_iff,
    List.any_eq_false] at hunused
  obtain ⟨hexported, hcalled⟩ := hunused
  rintro ⟨e, f, hf, he, hreach⟩
  rcases Relation.ReflTransGen.cases_tail hreach with rfl | ⟨k, -, hcalls⟩
  · rw [getElem?_linkAll, hd, Option.map_some] at hf
    cases hf
    have hall : d ∈ all files := (firsts_sublist [] (all files)).subset (List.mem_of_getElem? hd)
    rw [exported_of_mem_all hall he] at hexported
    cases hexported
  · have hk : k < (firsts [] (all files)).length := by
      simpa [linkAll] using hcalls.lt_length
    obtain ⟨d', hd', hbody⟩ :=
      (calls_linkAll_iff (nodup_names_firsts _) (List.getElem?_eq_getElem hk)).mp hcalls
    obtain rfl : d = d' := Option.some.inj (hd.symm.trans hd')
    exact hcalled _ (List.mem_map_of_mem (List.getElem_mem hk)) (beq_iff_eq.mpr hbody)

/-- A function that is reported as unused is dropped with the unreachable ones: the others have other
names. -/
theorem name_ne_of_isUnused {decl : Declaration} (debugNames : Bool)
    (hdecl : decl ∈ firstDeclarations (declarations files))
    (hunused : isUnused (declarations files) decl = true) {f : Func}
    (hf : f ∈ (Lowered.linked files debugNames).retainReachable.functions) : f.name ≠ decl.name := by
  rw [← map_declaration_firsts, List.mem_map] at hdecl
  obtain ⟨d, hd, rfl⟩ := hdecl
  -- what is kept was linked from a first declaration that some export needs
  have hkept : f ∈ keepMarked (linkAll (firsts [] (all files)))
      (reachableMarks (linkAll (firsts [] (all files)))) := hf
  rw [keepMarked_eq_map_select, List.mem_map] at hkept
  obtain ⟨g, hg, rfl⟩ := hkept
  obtain ⟨i, hmark, hg⟩ := exists_of_mem_select hg
  rw [getElem?_linkAll, Option.map_eq_some_iff] at hg
  obtain ⟨e, he, rfl⟩ := hg
  intro hname
  obtain rfl : e = d := List.inj_on_of_nodup_map (nodup_names_firsts (all files))
    (List.mem_of_getElem? he) hd hname
  exact not_needed_of_isUnused he hunused (reachableMarks_eq_true_iff.mp hmark).2

end Linked

open Linked

/-- **The reports are exact.** Whatever the files and the options, there is reported, in this order and
nothing else, an error for each repeated declaration, an error for each first declaration that calls a
name declared nowhere, and a warning for each first declaration that is no export and that no first
declaration calls. A function that is warned about is not in the program once the unreachable functions
are dropped. -/
theorem diagnostics_exact (files : List ParsedFile) (options : CompileOptions) :
    (Lowered.ofFiles files options).diagnostics =
        (repeatedDeclarations (declarations files)).map duplicateDiagnostic ++
          (firstDeclarations (declarations files)).filterMap (fun d =>
            (unknownCallee? (declarations files) d).map (unknownDiagnostic d)) ++
          ((firstDeclarations (declarations files)).filter
            (isUnused (declarations files))).map unusedDiagnostic ∧
      (options.treeShaking = true →
        ∀ d ∈ (firstDeclarations (declarations files)).filter (isUnused (declarations files)),
          ∀ f ∈ (Lowered.ofFiles files options).program.functions, f.name ≠ d.name) := by
  constructor
  · exact reports_eq files
  · intro hshaking d hd f hf
    obtain ⟨hfirst, hunused⟩ := List.mem_filter.mp hd
    unfold Lowered.ofFiles at hf
    simp only [hshaking, if_true] at hf
    exact name_ne_of_isUnused options.debugInfo hfirst hunused hf

/-- Two files in which `twice` and `main` are declared again. `twice` calls a name that is declared
nowhere, and only the second `main` calls `spare`. -/
def clashingFiles : List ParsedFile :=
  [⟨"main", [], [⟨"main", true, .call "twice", ⟨"main.ts", 1, 1, none⟩, ⟨"main.ts", 1, 40, none⟩⟩,
      ⟨"twice", false, .call "gone", ⟨"main.ts", 2, 1, none⟩, ⟨"main.ts", 2, 34, none⟩⟩,
      ⟨"twice", false, .int 2, ⟨"main.ts", 3, 1, none⟩, ⟨"main.ts", 3, 34, none⟩⟩], []⟩,
    ⟨"lib", [], [⟨"spare", false, .int 1, ⟨"lib.ts", 1, 1, none⟩, ⟨"lib.ts", 1, 34, none⟩⟩,
      ⟨"main", true, .call "spare", ⟨"lib.ts", 2, 1, none⟩, ⟨"lib.ts", 2, 40, none⟩⟩], []⟩]

theorem clashingFiles_reported :
    (Lowered.ofFiles clashingFiles ⟨true, true⟩).diagnostics.map
        (fun r => (r.code, r.location.map fun l => (l.path, l.line, l.column))) =
      [("TS2300", some ("main.ts", 3, 1)), ("TS2300", some ("lib.ts", 2, 1)),
        ("TS2304", some ("main.ts", 2, 34)), ("TS6133", some ("lib.ts", 1, 1))] ∧
    (⟨"spare", false, .int 1, ⟨"lib.ts", 1, 1, none⟩, ⟨"lib.ts", 1, 34, none⟩⟩ : Declaration) ∈
      (firstDeclarations (declarations clashingFiles)).filter (isUnused (declarations clashingFiles)) ∧
    ∀ f ∈ (Lowered.ofFiles clashingFiles ⟨true, true⟩).program.functions, f.name ≠ "spare" := by
  have hunused : (⟨"spare", false, .int 1, ⟨"lib.ts", 1, 1, none⟩, ⟨"lib.ts", 1, 34, none⟩⟩ :
      Declaration) ∈ (firstDeclarations (declarations clashingFiles)).filter
        (isUnused (declarations clashingFiles)) := by decide
  obtain ⟨hreported, habsent⟩ := diagnostics_exact clashingFiles ⟨true, true⟩
  refine ⟨?_, hunused, habsent rfl _ hunused⟩
  rw [hreported]
  decide

end Wasmline
