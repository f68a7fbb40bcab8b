import Mathlib.Data.List.Perm.Basic
import Wasmline.Proofs.Program.Reports
import Wasmline.Proofs.Program.WellFormed

/-!
# The order of imports does not matter

The files behind the entry file can be taken in any order. Functions get other indices by that, calls
lead elsewhere, and reports come in another order; of a name that is declared twice, another
declaration is the first. What can be seen of a program without errors stays:

* Whether there is an error does not depend on the order (`reports_clean_iff_names`). An error is due
  to a name that is declared twice or to one that is called and declared nowhere, and both are said of
  all declarations together.
* If there is none, every name means one declaration, in either order. So a declaration evaluates to the
  same value (`Evaluates.mono`), and the exports of both programs, which end as the entry file's
  declarations say, end alike (`sameMeaning_linkAll`).
* All that is reported then is unused functions, and a function is used or not in any order
  (`reports_perm`).

`ofFiles_import_order` puts it together, whether or not unreachable functions are dropped.
-/

namespace Wasmline

variable {files files' : List ParsedFile} {functions functions' : List Func} {i j : Nat}

/-! ### Outcomes -/

/-- Running the function at `i` of the one list and the function at `j` of the other returns the same
value, or both go round for ever. -/
def SameOutcome (functions functions' : List Func) (i j : Nat) : Prop :=
  (∃ value, Ends functions i (.returns value) ∧ Ends functions' j (.returns value)) ∨
    (Ends functions i .endless ∧ Ends functions' j .endless)

/-- What does not get stuck and ends alike has the same outcome. -/
theorem sameOutcome_of_ends_iff (hstuck : ¬ Ends functions i .stuck)
    (h : ∀ ending, Ends functions i ending ↔ Ends functions' j ending) :
    SameOutcome functions functions' i j := by
  obtain ⟨ending, hi⟩ := exists_ends functions i
  cases ending with
  | returns value => exact .inl ⟨value, hi, (h _).mp hi⟩
  | endless => exact .inr ⟨hi, (h _).mp hi⟩
  | stuck => exact absurd hi hstuck

/-- Where more is declared, what had a value keeps it. -/
theorem Evaluates.mono (h : ∀ d, Declares files d → Declares files' d) {d : Declaration}
    {value : Int32} (hd : Evaluates files d value) : Evaluates files' d value := by
  induction hd with
  | int hbody => exact .int hbody
  | call hbody hdeclared _ ih => exact .call hbody (h _ hdeclared) ih

/-- Functions that end as a declaration says, in files that give it the same values, end alike. -/
theorem EndsAs.ends_iff {d : Declaration} (h : EndsAs files functions i d)
    (h' : EndsAs files' functions' j d)
    (hsame : ∀ value, Evaluates files d value ↔ Evaluates files' d value) (ending : Ending) :
    Ends functions i ending ↔ Ends functions' j ending := by
  refine ends_iff_of_forall (fun ending hi => ?_) ending
  cases ending with
  | returns value => exact (h'.1 value).mpr ((hsame value).mp ((h.1 value).mp hi))
  | endless => exact h'.2.mpr fun value hv => h.2.mp hi value ((hsame value).mpr hv)
  | stuck =>
      -- a stuck function would have no value, and then it would be endless
      have hvalueless : ∀ value, ¬ Evaluates files d value := by
        intro value hv
        cases hi.unique ((h.1 value).mpr hv)
      cases hi.unique (h.2.mpr hvalueless)

/-- Dropping unreachable functions or not, a program means what it meant when it was linked. -/
theorem sameMeaning_ofFiles (files : List ParsedFile) (options : CompileOptions) :
    SameMeaning (Lowered.linked files options.debugInfo).functions
      (Lowered.ofFiles files options).program.functions := by
  unfold Lowered.ofFiles
  cases options.treeShaking with
  | false => exact .refl _
  | true => exact sameMeaning_retainReachable _

/-! ### Errors -/

namespace Linked

/-- Nothing is declared again exactly if names are distinct and none was seen. -/
theorem repeats_eq_nil_iff (seen : List String) (ds : List Linked) :
    repeats seen ds = [] ↔ (ds.map name).Nodup ∧ ∀ d ∈ ds, d.name ∉ seen := by
  induction ds generalizing seen with
  | nil => simp [repeats]
  | cons d ds ih =>
      unfold repeats
      split_ifs with hd
      · simp [hd]
      · rw [ih (d.name :: seen), List.map_cons, List.nodup_cons, List.forall_mem_cons]
        simp only [List.mem_cons, not_or, List.mem_map, not_exists, not_and]
        grind

theorem Resolved.perm {ds ds' : List Linked} (horder : ds.Perm ds') (h : Resolved ds) :
    Resolved ds' := by
  intro d hd callee hb
  exact ((horder.map name).mem_iff).mp (h d (horder.mem_iff.mpr hd) callee hb)

/-- The declarations behind the entry file's come in the order of their files. -/
theorem perm_all (entry : ParsedFile) (horder : files.Perm files') :
    (all (entry :: files)).Perm (all (entry :: files')) := by
  rw [all_cons, all_cons]
  exact (horder.flatMap_right _).append_left _

end Linked

open Linked

/-- Nothing is reported as an error exactly if names are distinct and every name that is called is
declared. -/
theorem reports_clean_iff_names (files : List ParsedFile) :
    (∀ r ∈ Lowered.reports files, r.severity ≠ .error) ↔
      ((all files).map Linked.name).Nodup ∧ Resolved (all files) := by
  have hrepeats : repeats [] (all files) = [] ↔ ((all files).map Linked.name).Nodup := by
    simp [repeats_eq_nil_iff]
  rw [reports_clean_iff, ← hrepeats]
  refine and_congr_right fun hnone => ?_
  rw [firsts_eq_self_of_repeats hnone]

/-- Errors do not depend on the order of files. -/
theorem reports_clean_perm (entry : ParsedFile) (horder : files.Perm files')
    (hclean : ∀ r ∈ Lowered.reports (entry :: files), r.severity ≠ .error) :
    ∀ r ∈ Lowered.reports (entry :: files'), r.severity ≠ .error := by
  have hall := perm_all entry horder
  rw [reports_clean_iff_names] at hclean ⊢
  exact ⟨(hall.map Linked.name).nodup_iff.mp hclean.1, hclean.2.perm hall⟩

/-! ### Programs without errors -/

theorem linked_functions_of_clean (hclean : ∀ r ∈ Lowered.reports files, r.severity ≠ .error)
    (debugNames : Bool) : (Lowered.linked files debugNames).functions = linkAll (all files) := by
  rw [linked_functions, firsts_eq_self_of_repeats ((reports_clean_iff files).mp hclean).1]

/-- Whatever the order of files, linked declarations mean the same: the exports are the entry file's, and
each declaration has the value it has. -/
theorem sameMeaning_linkAll (entry : ParsedFile) (horder : files.Perm files')
    (hclean : ∀ r ∈ Lowered.reports (entry :: files), r.severity ≠ .error) :
    SameMeaning (linkAll (all (entry :: files))) (linkAll (all (entry :: files'))) := by
  obtain ⟨hnodup, hres⟩ := (reports_clean_iff_names _).mp hclean
  obtain ⟨hnodup', hres'⟩ := (reports_clean_iff_names _).mp (reports_clean_perm entry horder hclean)
  have hdeclares : ∀ d, Declares (entry :: files) d ↔ Declares (entry :: files') d := by
    intro d
    unfold Declares
    simp only [(horder.cons entry).mem_iff]
  have hsame : ∀ d value, Evaluates (entry :: files) d value ↔ Evaluates (entry :: files') d value :=
    fun d value => ⟨.mono fun d => (hdeclares d).mp, .mono fun d => (hdeclares d).mpr⟩
  refine forall₂_comp ?_ (forall₂_exports_linkAll hnodup hres)
    (forall₂_exports_linkAll hnodup' hres').flip
  rintro e d e' ⟨hname, hends⟩ ⟨hname', hends'⟩
  exact ⟨hname'.trans hname.symm, hends.ends_iff hends' (hsame d)⟩

/-- If there are no errors, every declaration is the first of its name. -/
theorem firstDeclarations_of_clean (hclean : ∀ r ∈ Lowered.reports files, r.severity ≠ .error) :
    firstDeclarations (declarations files) = declarations files := by
  rw [← map_declaration_firsts, firsts_eq_self_of_repeats ((reports_clean_iff files).mp hclean).1,
    map_declaration_all]

/-- If there are no errors, what is reported is the unused functions. -/
theorem reports_of_clean (hclean : ∀ r ∈ Lowered.reports files, r.severity ≠ .error) :
    Lowered.reports files =
      ((declarations files).filter (isUnused (declarations files))).map unusedDiagnostic := by
  obtain ⟨hrepeats, hres⟩ := (reports_clean_iff files).mp hclean
  have hrepeated : repeatedDeclarations (declarations files) = [] := by
    rw [← map_declaration_repeats, hrepeats, List.map_nil]
  have hunknown : (firstDeclarations (declarations files)).filterMap (fun d =>
      (unknownCallee? (declarations files) d).map (unknownDiagnostic d)) = [] := by
    rw [← filterMap_unknownReport?, List.filterMap_eq_nil_iff]
    intro d hd
    unfold unknownReport?
    rcases hb : d.declaration.body with value | callee
    · rfl
    · exact if_pos (hres d hd callee hb)
  rw [reports_eq, hrepeated, hunknown, firstDeclarations_of_clean hclean]
  rfl

theorem reports_perm (entry : ParsedFile) (horder : files.Perm files')
    (hclean : ∀ r ∈ Lowered.reports (entry :: files), r.severity ≠ .error) :
    (Lowered.reports (entry :: files)).Perm (Lowered.reports (entry :: files')) := by
  have hclean' := reports_clean_perm entry horder hclean
  have hperm : (declarations (entry :: files)).Perm (declarations (entry :: files')) :=
    (horder.cons entry).flatMap_right _
  have hunused : isUnused (declarations (entry :: files)) =
      isUnused (declarations (entry :: files')) := by
    funext d
    unfold isUnused
    rw [firstDeclarations_of_clean hclean, firstDeclarations_of_clean hclean', hperm.any_eq]
  rw [reports_of_clean hclean, reports_of_clean hclean', hunused]
  exact (hperm.filter _).map _

/-- **The order of imports does not matter.** The files behind the entry file are taken in one order and
in another, under the same options. Either both orders lead to an error or neither does; and if neither
does, both programs export the same names in the same order, each export returns the same value in both
or goes round for ever in both, and the same is reported up to order. -/
theorem ofFiles_import_order (entry : ParsedFile) (files files' : List ParsedFile)
    (horder : files.Perm files') (options : CompileOptions) :
    ((∃ r ∈ (Lowered.ofFiles (entry :: files) options).diagnostics, r.severity = .error) ↔
      ∃ r ∈ (Lowered.ofFiles (entry :: files') options).diagnostics, r.severity = .error) ∧
    ((∀ r ∈ (Lowered.ofFiles (entry :: files) options).diagnostics, r.severity ≠ .error) →
      List.Forall₂
        (fun e e' => e'.1.name = e.1.name ∧
          SameOutcome (Lowered.ofFiles (entry :: files) options).program.functions
            (Lowered.ofFiles (entry :: files') options).program.functions e.2 e'.2)
        (exportsOf (Lowered.ofFiles (entry :: files) options).program.functions)
        (exportsOf (Lowered.ofFiles (entry :: files') options).program.functions) ∧
      (Lowered.ofFiles (entry :: files) options).diagnostics.Perm
        (Lowered.ofFiles (entry :: files') options).diagnostics) := by
  have hiff : (∀ r ∈ Lowered.reports (entry :: files), r.severity ≠ .error) ↔
      ∀ r ∈ Lowered.reports (entry :: files'), r.severity ≠ .error :=
    ⟨reports_clean_perm entry horder, reports_clean_perm entry horder.symm⟩
  have herror : (∃ r ∈ Lowered.reports (entry :: files), r.severity = .error) ↔
      ∃ r ∈ Lowered.reports (entry :: files'), r.severity = .error := by
    simpa using not_congr hiff
  refine ⟨herror, fun hclean => ⟨?_, reports_perm entry horder hclean⟩⟩
  have hlinked : SameMeaning (Lowered.linked (entry :: files) options.debugInfo).functions
      (Lowered.linked (entry :: files') options.debugInfo).functions := by
    rw [linked_functions_of_clean hclean, linked_functions_of_clean (hiff.mp hclean)]
    exact sameMeaning_linkAll entry horder hclean
  have hsame := ((sameMeaning_ofFiles (entry :: files) options).symm.trans hlinked).trans
    (sameMeaning_ofFiles (entry :: files') options)
  have hwf := wellFormed_ofFiles (entry :: files) options
  have hexports := (List.forall₂_and_left _ _).mpr
    ⟨fun e he => (List.getElem?_eq_some_iff.mp (mem_exportsOf.mp he).1).1, hsame⟩
  refine hexports.imp ?_
  rintro e e' ⟨hlt, hname, hends⟩
  exact ⟨hname, sameOutcome_of_ends_iff (hwf.not_ends_stuck hlt) hends⟩

/-- An entry file with an export that has a value and one that goes round. -/
def crossingEntry : ParsedFile :=
  ⟨"main", [], [⟨"main", true, .call "helper", ⟨"main.ts", 1, 1, none⟩, ⟨"main.ts", 1, 40, none⟩⟩,
    ⟨"spin", true, .call "round", ⟨"main.ts", 2, 1, none⟩, ⟨"main.ts", 2, 40, none⟩⟩], []⟩

/-- Two files for it. The first calls the second, and each has a function that is not used. -/
def crossingImports : List ParsedFile :=
  [⟨"a", [], [⟨"helper", false, .call "base", ⟨"a.ts", 1, 1, none⟩, ⟨"a.ts", 1, 34, none⟩⟩,
      ⟨"spare", false, .int 1, ⟨"a.ts", 2, 1, none⟩, ⟨"a.ts", 2, 34, none⟩⟩], []⟩,
    ⟨"b", [], [⟨"idle", false, .int 2, ⟨"b.ts", 1, 1, none⟩, ⟨"b.ts", 1, 34, none⟩⟩,
      ⟨"base", false, .int 5, ⟨"b.ts", 2, 1, none⟩, ⟨"b.ts", 2, 34, none⟩⟩,
      ⟨"round", false, .call "round", ⟨"b.ts", 3, 1, none⟩, ⟨"b.ts", 3, 34, none⟩⟩], []⟩]

theorem crossingImports_reversed :
    crossingImports.Perm crossingImports.reverse ∧
    (∀ r ∈ (Lowered.ofFiles (crossingEntry :: crossingImports) ⟨true, true⟩).diagnostics,
      r.severity ≠ .error) ∧
    List.Forall₂
      (fun e e' => e'.1.name = e.1.name ∧
        SameOutcome
          (Lowered.ofFiles (crossingEntry :: crossingImports) ⟨true, true⟩).program.functions
          (Lowered.ofFiles (crossingEntry :: crossingImports.reverse) ⟨true, true⟩).program.functions
          e.2 e'.2)
      (exportsOf (Lowered.ofFiles (crossingEntry :: crossingImports) ⟨true, true⟩).program.functions)
      (exportsOf
        (Lowered.ofFiles (crossingEntry :: crossingImports.reverse) ⟨true, true⟩).program.functions) ∧
    (Lowered.ofFiles (crossingEntry :: crossingImports) ⟨true, true⟩).diagnostics.Perm
      (Lowered.ofFiles (crossingEntry :: crossingImports.reverse) ⟨true, true⟩).diagnostics := by
  have horder := (List.reverse_perm crossingImports).symm
  have hclean : ∀ r ∈ (Lowered.ofFiles (crossingEntry :: crossingImports) ⟨true, true⟩).diagnostics,
      r.severity ≠ .error := by decide
  exact ⟨horder, hclean, (ofFiles_import_order crossingEntry _ _ horder ⟨true, true⟩).2 hclean⟩

end Wasmline
