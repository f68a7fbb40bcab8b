import Wasmline.Proofs.Program.Lowering

/-!
# Where declarations stand does not bear on the program

A location is only there to be shown. Declarations without their locations (`Declaration.unplaced`)
lower to the same functions as with them, and what is reported about them is as grave, so files with
the same declarations make the same program wherever the declarations stand (`ofFiles_congr`).
-/

namespace Wasmline

/-- The declaration without its places. -/
def Declaration.unplaced (d : Declaration) : Declaration where
  name := d.name
  exported := d.exported
  body := d.body
  location := ⟨"", 0, 0, none⟩
  bodyLocation := ⟨"", 0, 0, none⟩

/-- The declarations of a file, without their places. -/
def ParsedFile.content (file : ParsedFile) : List Declaration :=
  file.functions.map Declaration.unplaced

namespace Linked

def unplaced (d : Linked) : Linked where
  declaration := d.declaration.unplaced
  exported := d.exported

@[simp] theorem name_unplaced (d : Linked) : d.unplaced.name = d.name := rfl

theorem map_name_unplaced (ds : List Linked) :
    (ds.map unplaced).map Linked.name = ds.map Linked.name := by
  rw [List.map_map]
  rfl

theorem map_unplaced_all_cons (entry : ParsedFile) (files : List ParsedFile) :
    (all (entry :: files)).map unplaced =
      entry.content.map (fun d => ⟨d, d.exported⟩) ++
        (files.map ParsedFile.content).flatMap fun ds => ds.map fun d => ⟨d, false⟩ := by
  rw [all_cons, List.map_append, List.map_map, ParsedFile.content, List.map_map, List.map_flatMap,
    List.flatMap_map]
  simp only [List.map_map, ParsedFile.content]
  rfl

theorem firsts_map_unplaced : (seen : List String) → (ds : List Linked) →
    firsts seen (ds.map unplaced) = (firsts seen ds).map unplaced
  | _, [] => rfl
  | seen, d :: ds => by
      by_cases hknown : d.name ∈ seen
      · simp [firsts, hknown, firsts_map_unplaced seen ds]
      · simp [firsts, hknown, firsts_map_unplaced (d.name :: seen) ds]

theorem repeats_map_unplaced : (seen : List String) → (ds : List Linked) →
    repeats seen (ds.map unplaced) = (repeats seen ds).map unplaced
  | _, [] => rfl
  | seen, d :: ds => by
      by_cases hknown : d.name ∈ seen
      · simp [repeats, hknown, repeats_map_unplaced seen ds]
      · simp [repeats, hknown, repeats_map_unplaced (d.name :: seen) ds]

/-- What is declared is linked as it is without its places. -/
theorem map_link_unplaced (names : List String) (ds : List Linked) :
    (ds.map unplaced).map (link names) = ds.map (link names) := by
  rw [List.map_map]
  rfl

/-! ### How grave reports are -/

theorem severity_duplicateReport (ds : List Linked) :
    ((ds.map unplaced).map duplicateReport).map Diagnostic.severity =
      (ds.map duplicateReport).map Diagnostic.severity := by
  simp only [List.map_map]
  rfl

theorem severity_unknownReport? (names : List String) (ds : List Linked) :
    ((ds.map unplaced).filterMap (unknownReport? names)).map Diagnostic.severity =
      (ds.filterMap (unknownReport? names)).map Diagnostic.severity := by
  simp only [List.filterMap_map, List.map_filterMap]
  refine congrFun (congrArg _ (funext fun d => ?_)) ds
  obtain ⟨⟨name, exported, body, location, bodyLocation⟩, exported'⟩ := d
  cases body with
  | int value => rfl
  | call callee =>
      simp only [Function.comp_apply, unknownReport?, unplaced, Declaration.unplaced]
      split <;> rfl

theorem severity_unusedReport? (called : List Nat) (ds : List Linked) :
    ((ds.map unplaced).zipIdx.filterMap (unusedReport? called)).map Diagnostic.severity =
      (ds.zipIdx.filterMap (unusedReport? called)).map Diagnostic.severity := by
  simp only [List.zipIdx_map, List.filterMap_map, List.map_filterMap]
  refine congrFun (congrArg _ (funext fun d => ?_)) ds.zipIdx
  change Option.map _ (if d.1.declaration.exported || called.contains d.2 then none else some _) = _
  unfold unusedReport?
  split <;> rfl

end Linked

namespace Lowered

variable {files files' : List ParsedFile}

theorem map_unplaced_all (h : files.map ParsedFile.content = files'.map ParsedFile.content) :
    (Linked.all files).map Linked.unplaced = (Linked.all files').map Linked.unplaced := by
  cases files with
  | nil =>
      rw [List.map_nil, eq_comm, List.map_eq_nil_iff] at h
      rw [h]
  | cons entry files =>
      cases files' with
      | nil => exact nomatch h
      | cons entry' files' =>
          rw [List.map_cons, List.map_cons, List.cons.injEq] at h
          rw [Linked.map_unplaced_all_cons, Linked.map_unplaced_all_cons, h.1, h.2]

/-- Files with the same declarations have the same first declarations, up to their places. -/
theorem map_unplaced_firsts (h : files.map ParsedFile.content = files'.map ParsedFile.content) :
    (Linked.firsts [] (Linked.all files)).map Linked.unplaced =
      (Linked.firsts [] (Linked.all files')).map Linked.unplaced := by
  rw [← Linked.firsts_map_unplaced, ← Linked.firsts_map_unplaced, map_unplaced_all h]

theorem map_name_firsts (h : files.map ParsedFile.content = files'.map ParsedFile.content) :
    (Linked.firsts [] (Linked.all files)).map Linked.name =
      (Linked.firsts [] (Linked.all files')).map Linked.name := by
  rw [← Linked.map_name_unplaced, map_unplaced_firsts h, Linked.map_name_unplaced]

/-- Files with the same declarations link to the same functions. -/
theorem map_link_firsts (h : files.map ParsedFile.content = files'.map ParsedFile.content)
    (names : List String) :
    (Linked.firsts [] (Linked.all files)).map (Linked.link names) =
      (Linked.firsts [] (Linked.all files')).map (Linked.link names) := by
  rw [← Linked.map_link_unplaced, map_unplaced_firsts h, Linked.map_link_unplaced]

theorem linked_congr (h : files.map ParsedFile.content = files'.map ParsedFile.content)
    (debugNames : Bool) : linked files debugNames = linked files' debugNames := by
  unfold linked
  simp only [map_name_firsts h, map_link_firsts h]

theorem severity_reports_congr (h : files.map ParsedFile.content = files'.map ParsedFile.content) :
    (reports files).map Diagnostic.severity = (reports files').map Diagnostic.severity := by
  have hrepeated : (Linked.repeats [] (Linked.all files)).map Linked.unplaced =
      (Linked.repeats [] (Linked.all files')).map Linked.unplaced := by
    rw [← Linked.repeats_map_unplaced, ← Linked.repeats_map_unplaced, map_unplaced_all h]
  simp only [reports, List.map_append]
  rw [← Linked.severity_duplicateReport, hrepeated, Linked.severity_duplicateReport,
    map_name_firsts h, map_link_firsts h, ← Linked.severity_unknownReport?,
    ← Linked.severity_unusedReport?, map_unplaced_firsts h, Linked.severity_unknownReport?,
    Linked.severity_unusedReport?]

/-- Files with the same declarations make the same program, and what is reported about them is as
grave. -/
theorem ofFiles_congr (h : files.map ParsedFile.content = files'.map ParsedFile.content)
    (options : CompileOptions) :
    (ofFiles files options).program = (ofFiles files' options).program ∧
      (ofFiles files options).diagnostics.map Diagnostic.severity =
        (ofFiles files' options).diagnostics.map Diagnostic.severity := by
  unfold ofFiles
  rw [linked_congr h]
  exact ⟨rfl, severity_reports_congr h⟩

end Lowered

end Wasmline
