import Wasmline.Program.Lowering
import Wasmline.Proofs.Program.Reachable

/-!
# Lowering preserves meaning

The meaning of source files is given by names. A function that returns an integer evaluates to it, and
one that calls a name evaluates to whatever the function declared under that name, in whatever file,
evaluates to. This is `Evaluates`, a derivation, so calls that go round in a cycle have no value.

A lowered program goes by indices. The two agree when nothing is reported as an error, which is to say
that no name is declared twice and that every name that is called is declared
(`reports_clean_iff`): then every declaration is the function at its own place, a call leads to the
place of the declaration it names (`calls_linkAll_iff`), and the two evaluations follow each other
call by call (`endsAs_linkAll`).

`ofFiles_preserves_meaning` is the result for a whole program, whether or not unreachable functions
are dropped from it.
-/

namespace Wasmline

/-! ### The meaning of source files -/

/-- One of the files declares this function. -/
def Declares (files : List ParsedFile) (d : Declaration) : Prop :=
  ∃ file ∈ files, d ∈ file.functions

/-- A declared function evaluates to a value. A name means a function that is declared under it. -/
inductive Evaluates (files : List ParsedFile) : Declaration → Int32 → Prop
  | int {d : Declaration} {value : Int32} (body : d.body = .int value) : Evaluates files d value
  | call {d e : Declaration} {value : Int32} (body : d.body = .call e.name)
      (declared : Declares files e) (evaluates : Evaluates files e value) : Evaluates files d value

/-- The functions that the first file exports, in source order. -/
def entryExports : List ParsedFile → List Declaration
  | [] => []
  | entry :: _ => entry.functions.filter Declaration.exported

namespace Linked

/-! ### First declarations -/

/-- If nothing is declared again, the first declarations are all of them. -/
theorem firsts_eq_self_of_repeats {seen : List String} {ds : List Linked}
    (h : repeats seen ds = []) : firsts seen ds = ds := by
  induction ds generalizing seen with
  | nil => rfl
  | cons d ds ih =>
      unfold repeats at h
      unfold firsts
      split_ifs at h ⊢ with hd
      rw [ih h]

/-- First declarations are some of the declarations, in order. -/
theorem firsts_sublist (seen : List String) (ds : List Linked) : (firsts seen ds).Sublist ds := by
  induction ds generalizing seen with
  | nil => exact List.Sublist.slnil
  | cons d ds ih =>
      unfold firsts
      split
      · exact (ih seen).cons d
      · exact (ih (d.name :: seen)).cons_cons d

/-- First declarations have names of their own, and none that was seen. -/
theorem firsts_names (seen : List String) (ds : List Linked) :
    ((firsts seen ds).map name).Nodup ∧ ∀ d ∈ firsts seen ds, d.name ∉ seen := by
  induction ds generalizing seen with
  | nil => exact ⟨.nil, by simp [firsts]⟩
  | cons d ds ih =>
      unfold firsts
      split_ifs with hd
      · exact ih seen
      · obtain ⟨hnodup, hnew⟩ := ih (d.name :: seen)
        refine ⟨?_, ?_⟩
        · rw [List.map_cons, List.nodup_cons]
          refine ⟨fun hmem => ?_, hnodup⟩
          obtain ⟨e, he, hname⟩ := List.mem_map.mp hmem
          exact hnew e he (hname ▸ List.mem_cons_self)
        · intro e he
          rcases List.mem_cons.mp he with rfl | he
          · exact hd
          · exact fun hseen => hnew e he (List.mem_cons_of_mem _ hseen)

theorem nodup_names_firsts (ds : List Linked) : ((firsts [] ds).map name).Nodup :=
  (firsts_names [] ds).1

/-! ### The declarations of files -/

/-- The entry file's declarations come first, with their exports; no other file exports anything. -/
theorem all_cons (entry : ParsedFile) (files : List ParsedFile) :
    all (entry :: files) = entry.functions.map (fun d => ⟨d, d.exported⟩) ++
      files.flatMap fun file => file.functions.map fun d => ⟨d, false⟩ := by
  have hrest : (files.mapIdx fun _ file => file.functions.map fun d => (⟨d, false⟩ : Linked)) =
      files.map fun file => file.functions.map fun d => ⟨d, false⟩ :=
    List.ext_getElem (by simp) (by simp)
  simp [all, List.mapIdx_cons, List.flatMap_def, hrest]

/-- The declarations of the files are those that some file declares. -/
theorem exists_mem_all_iff {files : List ParsedFile} {d : Declaration} :
    (∃ l ∈ all files, l.declaration = d) ↔ Declares files d := by
  unfold Declares
  cases files with
  | nil => simp [all]
  | cons entry files =>
      rw [all_cons]
      constructor
      · rintro ⟨l, hl, rfl⟩
        rcases List.mem_append.mp hl with hl | hl
        · obtain ⟨d, hd, rfl⟩ := List.mem_map.mp hl
          exact ⟨entry, List.mem_cons_self, hd⟩
        · obtain ⟨file, hfile, hl⟩ := List.mem_flatMap.mp hl
          obtain ⟨d, hd, rfl⟩ := List.mem_map.mp hl
          exact ⟨file, List.mem_cons_of_mem _ hfile, hd⟩
      · rintro ⟨file, hfile, hd⟩
        rcases List.mem_cons.mp hfile with rfl | hfile
        · exact ⟨⟨d, d.exported⟩, List.mem_append_left _ (List.mem_map.mpr ⟨d, hd, rfl⟩), rfl⟩
        · refine ⟨⟨d, false⟩, List.mem_append_right _ ?_, rfl⟩
          exact List.mem_flatMap.mpr ⟨file, hfile, List.mem_map.mpr ⟨d, hd, rfl⟩⟩

/-! ### Linked functions -/

/-- The functions that declarations stand for. -/
def linkAll (declared : List Linked) : List Func :=
  declared.map (link (declared.map name))

/-- Every name that is called is declared. -/
def Resolved (declared : List Linked) : Prop :=
  ∀ d ∈ declared, ∀ callee, d.declaration.body = .call callee → callee ∈ declared.map name

variable {declared : List Linked} {d : Linked} {i j : Nat}

theorem link_body_int {names : List String} {value : Int32}
    (h : d.declaration.body = .int value) : (link names d).body = .const value := by
  simp [link, h]

theorem link_body_call {names : List String} {callee : String} {target : Nat}
    (h : d.declaration.body = .call callee) (ht : names.idxOf? callee = some target) :
    (link names d).body = .call target := by
  simp [link, h, ht]

theorem link_body_unknown {names : List String} {callee : String}
    (h : d.declaration.body = .call callee) (ht : names.idxOf? callee = none) :
    (link names d).body = .const 0 := by
  simp [link, h, ht]

/-- In a list without repetitions, the first place of a member is its only one. -/
theorem idxOf?_eq_some_iff_of_nodup {names : List String} (hnodup : names.Nodup) {name : String} :
    names.idxOf? name = some i ↔ names[i]? = some name := by
  rw [List.idxOf?_eq_some_iff, List.getElem?_eq_some_iff]
  constructor
  · rintro ⟨hi, hname, -⟩
    exact ⟨hi, hname⟩
  · rintro ⟨hi, hname⟩
    refine ⟨hi, hname, fun j hj hjname => ?_⟩
    exact List.pairwise_iff_getElem.mp hnodup j i (by omega) hi hj (hjname.trans hname.symm)

/-- The function at an index is that of the declaration there. -/
theorem getElem?_linkAll (declared : List Linked) (i : Nat) :
    (linkAll declared)[i]? = declared[i]?.map (link (declared.map name)) :=
  List.getElem?_map

/-- A function calls the place of the declaration that its own declaration names. -/
theorem calls_linkAll_iff (hnodup : (declared.map name).Nodup) (hd : declared[i]? = some d) :
    Calls (linkAll declared) i j ↔
      ∃ e, declared[j]? = some e ∧ d.declaration.body = .call e.name := by
  have hf : (linkAll declared)[i]? = some (link (declared.map name) d) := by
    rw [getElem?_linkAll, hd]
    rfl
  rw [calls_iff]
  constructor
  · rintro ⟨f, hf', hbody⟩
    rw [hf] at hf'
    cases hf'
    rcases hb : d.declaration.body with value | callee
    · rw [link_body_int hb] at hbody
      cases hbody
    · rcases ht : (declared.map name).idxOf? callee with _ | target
      · rw [link_body_unknown hb ht] at hbody
        cases hbody
      · rw [link_body_call hb ht] at hbody
        cases hbody
        rw [idxOf?_eq_some_iff_of_nodup hnodup, List.getElem?_map, Option.map_eq_some_iff] at ht
        obtain ⟨e, he, rfl⟩ := ht
        exact ⟨e, he, rfl⟩
  · rintro ⟨e, he, hbody⟩
    refine ⟨_, hf, link_body_call hbody ?_⟩
    rw [idxOf?_eq_some_iff_of_nodup hnodup, List.getElem?_map, he]
    rfl

/-- The index of a declaration is called exactly if a declaration calls its name. -/
theorem mem_calledIndices_linkAll_iff (hnodup : (declared.map name).Nodup)
    (hd : declared[i]? = some d) :
    i ∈ calledIndices (linkAll declared) ↔ ∃ e ∈ declared, e.declaration.body = .call d.name := by
  rw [mem_calledIndices]
  constructor
  · rintro ⟨k, hcalls⟩
    have hk : k < declared.length := by simpa [linkAll] using hcalls.lt_length
    obtain ⟨d', hd', hbody⟩ :=
      (calls_linkAll_iff hnodup (List.getElem?_eq_getElem hk)).mp hcalls
    obtain rfl : d = d' := Option.some.inj (hd.symm.trans hd')
    exact ⟨declared[k], List.getElem_mem hk, hbody⟩
  · rintro ⟨e, he, hbody⟩
    obtain ⟨k, hk⟩ := List.mem_iff_getElem?.mp he
    exact ⟨k, (calls_linkAll_iff hnodup hk).mpr ⟨d, hd, hbody⟩⟩

/-- A function that returns a constant evaluates to it by name, call by call. -/
theorem evaluates_of_ends {files : List ParsedFile} (hall : ∀ l ∈ declared, Declares files l.declaration)
    (hnodup : (declared.map name).Nodup) (hres : Resolved declared) {value : Int32}
    (hd : declared[i]? = some d) (h : Ends (linkAll declared) i (.returns value)) :
    Evaluates files d.declaration value := by
  cases h with
  | returns hreached hfound hbody =>
      induction hreached using Relation.ReflTransGen.head_induction_on generalizing d with
      | refl =>
          rw [getElem?_linkAll, hd, Option.map_some] at hfound
          cases hfound
          rcases hb : d.declaration.body with v | callee
          · rw [link_body_int hb] at hbody
            cases hbody
            exact .int hb
          · -- the name that is called is declared, so the body is a call and no constant
            have hmem := hres d (List.mem_of_getElem? hd) callee hb
            obtain ⟨target, ht⟩ := Option.isSome_iff_exists.mp (List.isSome_idxOf?.mpr hmem)
            rw [link_body_call hb ht] at hbody
            cases hbody
      | head hcalls _ ih =>
          obtain ⟨e, he, hbody⟩ := (calls_linkAll_iff hnodup hd).mp hcalls
          exact .call hbody (hall e (List.mem_of_getElem? he)) (ih he)

/-- A declaration that evaluates to a constant by name returns it, call by call. -/
theorem ends_of_evaluates {files : List ParsedFile}
    (hall : ∀ e, Declares files e → ∃ l ∈ declared, l.declaration = e)
    (hnodup : (declared.map name).Nodup) {value : Int32}
    {decl : Declaration} (h : Evaluates files decl value)
    (hd : declared[i]? = some d) (hdecl : d.declaration = decl) :
    Ends (linkAll declared) i (.returns value) := by
  induction h generalizing i d with
  | @int decl value hbody =>
      subst hdecl
      refine ends_of_const (f := link (declared.map name) d) ?_ (link_body_int hbody)
      rw [getElem?_linkAll, hd]
      rfl
  | @call decl e value hbody hdeclares _ ih =>
      subst hdecl
      obtain ⟨l, hl, rfl⟩ := hall e hdeclares
      obtain ⟨j, hj, hget⟩ := List.getElem_of_mem hl
      have hl' : declared[j]? = some l := by rw [List.getElem?_eq_getElem hj, hget]
      exact .of_calls ((calls_linkAll_iff hnodup hd).mpr ⟨l, hl', hbody⟩) (ih hl' rfl)

/-- Among resolved declarations no chain of calls gets stuck: each call leads to a declaration. -/
theorem not_ends_stuck (hnodup : (declared.map name).Nodup) (hd : declared[i]? = some d) :
    ¬ Ends (linkAll declared) i .stuck := by
  intro h
  cases h with
  | stuck hreached hmissing =>
      rw [getElem?_linkAll, Option.map_eq_none_iff] at hmissing
      induction hreached using Relation.ReflTransGen.head_induction_on generalizing d with
      | refl =>
          rw [hd] at hmissing
          cases hmissing
      | head hcalls _ ih =>
          obtain ⟨e, he, -⟩ := (calls_linkAll_iff hnodup hd).mp hcalls
          exact ih he

end Linked

/-! ### When nothing is reported as an error -/

open Linked

/-- Nothing is reported as an error exactly if no name is declared again and every name that is called
is declared. -/
theorem reports_clean_iff (files : List ParsedFile) :
    (∀ r ∈ Lowered.reports files, r.severity ≠ .error) ↔
      repeats [] (all files) = [] ∧ Resolved (firsts [] (all files)) := by
  unfold Lowered.reports
  simp only [List.mem_append, List.mem_map, List.mem_filterMap]
  constructor
  · intro h
    refine ⟨List.eq_nil_iff_forall_not_mem.mpr fun d hd => ?_, fun d hd callee hb => ?_⟩
    · exact h d.duplicateReport (.inl (.inl ⟨d, hd, rfl⟩)) rfl
    · by_contra hcallee
      refine h ((Finding.unknownName callee).diagnose d.declaration.bodyLocation)
        (.inl (.inr ⟨d, hd, ?_⟩)) rfl
      simp only [unknownReport?, hb, if_neg hcallee]
  · rintro ⟨hrep, hres⟩ r ((⟨d, hd, -⟩ | ⟨d, hd, hr⟩) | ⟨d, hd, hr⟩)
    · rw [hrep] at hd
      cases hd
    · unfold unknownReport? at hr
      rcases hb : d.declaration.body with value | callee
      · simp [hb] at hr
      · simp [hb, hres d hd callee hb] at hr
    · unfold unusedReport? at hr
      split_ifs at hr
      cases hr
      simp [Finding.diagnose, Finding.severity]

/-- The functions of a program before anything is dropped from it. -/
theorem linked_functions (files : List ParsedFile) (debugNames : Bool) :
    (Lowered.linked files debugNames).functions = linkAll (firsts [] (all files)) := rfl

/-! ### Exports -/

/-- The exports among linked functions stand at the places of the declarations that export them. -/
theorem forall₂_exports_link (names : List String) :
    (ds : List Linked) → (n : Nat) →
      List.Forall₂ (fun e l => e.1.name = l.name ∧ ∃ k, e.2 = n + k ∧ ds[k]? = some l)
        (((ds.map (link names)).zipIdx n).filter fun e => e.1.exported)
        (ds.filter Linked.exported)
  | [], _ => .nil
  | d :: ds, n => by
      have htail : List.Forall₂
          (fun e l => e.1.name = l.name ∧ ∃ k, e.2 = n + k ∧ (d :: ds)[k]? = some l)
          (((ds.map (link names)).zipIdx (n + 1)).filter fun e => e.1.exported)
          (ds.filter Linked.exported) := by
        refine (forall₂_exports_link names ds (n + 1)).imp ?_
        rintro e l ⟨hname, k, he, hk⟩
        exact ⟨hname, k + 1, by omega, by simpa using hk⟩
      have hexp : (link names d).exported = d.exported := rfl
      simp only [List.map_cons, List.zipIdx_cons, List.filter_cons, hexp]
      split_ifs
      · exact .cons ⟨rfl, 0, rfl, rfl⟩ htail
      · exact htail

/-- The exports of a program are declared by its entry file. -/
theorem map_filter_exported_all (files : List ParsedFile) :
    ((all files).filter Linked.exported).map Linked.declaration = entryExports files := by
  cases files with
  | nil => rfl
  | cons entry files =>
      have hrest : (files.flatMap fun file => file.functions.map fun d =>
          (⟨d, false⟩ : Linked)).filter Linked.exported = [] := by
        rw [List.filter_eq_nil_iff]
        intro l hl
        obtain ⟨file, -, hl⟩ := List.mem_flatMap.mp hl
        obtain ⟨d, -, rfl⟩ := List.mem_map.mp hl
        simp
      rw [all_cons, List.filter_append, hrest, List.append_nil, List.filter_map, List.map_map]
      simp [entryExports, Function.comp_def]

/-- A function of a program ends as a declaration says: it returns what the declaration evaluates to,
and goes round for ever if that is nothing. -/
def EndsAs (files : List ParsedFile) (functions : List Func) (i : Nat) (d : Declaration) : Prop :=
  (∀ value, Ends functions i (.returns value) ↔ Evaluates files d value) ∧
    (Ends functions i .endless ↔ ∀ value, ¬ Evaluates files d value)

/-- Linked functions end as their declarations say. -/
theorem endsAs_linkAll {files : List ParsedFile} (hnodup : ((all files).map Linked.name).Nodup)
    (hres : Resolved (all files)) {i : Nat} {d : Linked} (hd : (all files)[i]? = some d) :
    EndsAs files (linkAll (all files)) i d.declaration := by
  have hreturns : ∀ value, Ends (linkAll (all files)) i (.returns value) ↔
      Evaluates files d.declaration value := fun value =>
    ⟨evaluates_of_ends (fun l hl => exists_mem_all_iff.mp ⟨l, hl, rfl⟩) hnodup hres hd,
      fun h => ends_of_evaluates (fun _ => exists_mem_all_iff.mpr) hnodup h hd rfl⟩
  refine ⟨hreturns, fun hend value hv => ?_, fun hno => ?_⟩
  · cases hend.unique ((hreturns value).mpr hv)
  · obtain ⟨ending, hend⟩ := exists_ends (linkAll (all files)) i
    cases ending with
    | returns value => exact absurd ((hreturns value).mp hend) (hno value)
    | endless => exact hend
    | stuck => exact absurd hend (not_ends_stuck hnodup hd)

/-- The exports of linked functions are those of the entry file, and end as their declarations say. -/
theorem forall₂_exports_linkAll {files : List ParsedFile}
    (hnodup : ((all files).map Linked.name).Nodup) (hres : Resolved (all files)) :
    List.Forall₂ (fun e d => e.1.name = d.name ∧ EndsAs files (linkAll (all files)) e.2 d)
      (exportsOf (linkAll (all files))) (entryExports files) := by
  rw [← map_filter_exported_all, List.forall₂_map_right_iff]
  refine (forall₂_exports_link _ (all files) 0).imp ?_
  rintro e l ⟨hname, k, he, hk⟩
  rw [Nat.zero_add] at he
  subst he
  exact ⟨hname, endsAs_linkAll hnodup hres hk⟩

/-- **Lowering preserves meaning.** Whether unreachable functions are dropped or not, the same is
reported; and if none of it is an error, the exports of the program are those of the entry file, in
source order and under their names, and each of them ends as its declaration says. -/
theorem ofFiles_preserves_meaning (files : List ParsedFile) (options : CompileOptions) :
    (∀ shaking, (Lowered.ofFiles files { options with treeShaking := shaking }).diagnostics =
      (Lowered.ofFiles files options).diagnostics) ∧
    ((∀ r ∈ (Lowered.ofFiles files options).diagnostics, r.severity ≠ .error) →
      List.Forall₂
        (fun e d => e.1.name = d.name ∧
          EndsAs files (Lowered.ofFiles files options).program.functions e.2 d)
        (exportsOf (Lowered.ofFiles files options).program.functions) (entryExports files)) := by
  refine ⟨fun _ => rfl, fun hclean => ?_⟩
  obtain ⟨hrep, hres⟩ := (reports_clean_iff files).mp hclean
  have hall := firsts_eq_self_of_repeats hrep
  have hnodup := nodup_names_firsts (all files)
  rw [hall] at hres hnodup
  have hfull := forall₂_exports_linkAll hnodup hres
  have hfunctions : (Lowered.linked files options.debugInfo).functions = linkAll (all files) := by
    rw [linked_functions, hall]
  unfold Lowered.ofFiles
  cases options.treeShaking with
  | false =>
      simp only [Bool.false_eq_true, if_false, hfunctions]
      exact hfull
  | true =>
      simp only [if_true]
      have hsame := sameMeaning_retainReachable (Lowered.linked files options.debugInfo)
      rw [hfunctions] at hsame
      -- the exports of the smaller program, those of the whole one, and the entry's declarations
      refine forall₂_comp ?_ hsame.flip hfull
      rintro e' e d ⟨hname, hends⟩ ⟨hname', hreturns, hendless⟩
      exact ⟨hname.trans hname', fun value => (hends _).symm.trans (hreturns value),
        (hends _).symm.trans hendless⟩

/-- Two files: what the entry exports calls a function of the other file, or itself. -/
def crossFile : List ParsedFile :=
  [⟨"main", [], [⟨"main", true, .call "helper", ⟨"main.ts", 1, 1, none⟩, ⟨"main.ts", 1, 1, none⟩⟩,
      ⟨"spin", true, .call "spin", ⟨"main.ts", 2, 1, none⟩, ⟨"main.ts", 2, 1, none⟩⟩], []⟩,
    ⟨"lib", [], [⟨"spare", true, .int 1, ⟨"lib.ts", 1, 1, none⟩, ⟨"lib.ts", 1, 1, none⟩⟩,
      ⟨"helper", true, .int 5, ⟨"lib.ts", 2, 1, none⟩, ⟨"lib.ts", 2, 1, none⟩⟩], []⟩]

theorem crossFile_preserves_meaning :
    (∀ r ∈ (Lowered.ofFiles crossFile ⟨true, true⟩).diagnostics, r.severity ≠ .error) ∧
      List.Forall₂
        (fun e d => e.1.name = d.name ∧
          EndsAs crossFile (Lowered.ofFiles crossFile ⟨true, true⟩).program.functions e.2 d)
        (exportsOf (Lowered.ofFiles crossFile ⟨true, true⟩).program.functions)
        (entryExports crossFile) :=
  have hclean : ∀ r ∈ (Lowered.ofFiles crossFile ⟨true, true⟩).diagnostics, r.severity ≠ .error := by
    decide
  ⟨hclean, (ofFiles_preserves_meaning crossFile ⟨true, true⟩).2 hclean⟩

end Wasmline
