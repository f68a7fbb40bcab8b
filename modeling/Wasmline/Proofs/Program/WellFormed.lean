import Wasmline.Proofs.Program.Algebra
import Wasmline.Proofs.Program.Lowering

/-!
# Programs stay well formed

Functions are well formed if their names are pairwise distinct and every call leads to one of them.

* Lowering makes well-formed functions of any files, with errors in them or not
  (`wellFormed_ofFiles`): first declarations have names of their own, and a call is linked to the place
  of one of them or else becomes a constant.
* Every edit keeps functions well formed (`WellFormed.apply`), and so does every sequence of them
  (`WellFormed.transform`). Folding only takes calls away. Dropping functions moves calls, and since
  what a kept function calls is kept, a call is moved to where a function stands.
-/

namespace Wasmline

/-- Functions have names of their own, and every call leads to one of them. -/
structure WellFormed (functions : List Func) : Prop where
  names : (functions.map Func.name).Nodup
  calls : ∀ f ∈ functions, ∀ target, f.body = .call target → target < functions.length

variable {functions : List Func} {marks : List Bool} {i j : Nat}

theorem select_sublist {α : Type} (marks : List Bool) (l : List α) : (select marks l).Sublist l := by
  induction marks generalizing l with
  | nil => exact List.nil_sublist l
  | cons b marks ih =>
      cases l with
      | nil => cases b <;> exact List.nil_sublist _
      | cons a l =>
          cases b with
          | false => exact (ih l).cons a
          | true => exact (ih l).cons_cons a

namespace WellFormed

theorem lt_of_calls (h : WellFormed functions) (hij : Calls functions i j) :
    j < functions.length := by
  obtain ⟨f, hf, hb⟩ := calls_iff.mp hij
  exact h.calls f (List.mem_of_getElem? hf) j hb

/-- No chain of calls among well-formed functions gets stuck. -/
theorem not_ends_stuck (h : WellFormed functions) (hi : i < functions.length) :
    ¬ Ends functions i .stuck := by
  intro hstuck
  cases hstuck with
  | @stuck j hreached hmissing =>
      have hj : j < functions.length := by
        rcases Relation.ReflTransGen.cases_tail hreached with rfl | ⟨k, -, hkj⟩
        · exact hi
        · exact h.lt_of_calls hkj
      rw [List.getElem?_eq_getElem hj] at hmissing
      exact absurd hmissing (Option.some_ne_none _)

/-- Keeping marked functions keeps them well formed, if what they call is marked too. -/
theorem keepMarked (h : WellFormed functions) (hlen : marks.length = functions.length)
    (hc : MarksClosed functions marks) : WellFormed (keepMarked functions marks) where
  names := by
    have hnames : (Wasmline.keepMarked functions marks).map Func.name =
        (select marks functions).map Func.name := by
      rw [keepMarked_eq_map_select, List.map_map]
      rfl
    rw [hnames]
    exact h.names.sublist ((select_sublist marks functions).map Func.name)
  calls f' hf' target' hb' := by
    rw [keepMarked_eq_map_select, List.mem_map] at hf'
    obtain ⟨f, hf, rfl⟩ := hf'
    obtain ⟨i, hi, hf⟩ := exists_of_mem_select hf
    rcases hb : f.body with value | target
    · simp [Func.retarget, Body.retarget, hb] at hb'
    · have hcalls : Calls functions i target := calls_iff.mpr ⟨f, hf, hb⟩
      have hlt := h.lt_of_calls hcalls
      have hmarked := getElem?_eq_true_of_lt (hlen ▸ hlt) (hc i target hi hcalls)
      have hkept := getElem?_keepMarked_newIndex functions hmarked
      rw [List.getElem?_eq_getElem hlt, Option.map_some] at hkept
      obtain rfl : newIndex marks target = target' := by
        simpa [Func.retarget, Body.retarget, hb] using hb'
      exact (List.getElem?_eq_some_iff.mp hkept).1

theorem retained (h : WellFormed functions) : WellFormed (retained functions) :=
  h.keepMarked (length_reachableMarks functions) (marksClosed_reachableMarks functions)

/-- Folding takes calls away and adds none. -/
theorem foldBodies (h : WellFormed functions) : WellFormed (foldBodies functions) where
  names := by
    have hnames : (Wasmline.foldBodies functions).map Func.name = functions.map Func.name := by
      refine List.ext_getElem? fun i => ?_
      rw [List.getElem?_map, List.getElem?_map, getElem?_foldBodies, Option.map_map]
      congr 1
      funext f
      cases constantAt functions.toArray i <;> rfl
    rw [hnames]
    exact h.names
  calls f' hf' target hb' := by
    obtain ⟨i, hi, rfl⟩ := List.getElem_of_mem hf'
    have hcalls : Calls (Wasmline.foldBodies functions) i target :=
      calls_iff.mpr ⟨_, List.getElem?_eq_getElem hi, hb'⟩
    rw [← (forall₂_foldBodies functions).length_eq]
    exact h.lt_of_calls hcalls.of_foldBodies

/-- **Every edit keeps functions well formed.** -/
theorem apply {p : Program} (h : WellFormed p.functions) (edit : Edit) :
    WellFormed (edit.apply p).functions := by
  cases edit with
  | retainReachable => exact h.retained
  | foldConstants => exact h.foldBodies.retained
  | optimize => exact h.foldBodies.retained
  | runPasses names => exact h

theorem transform {p : Program} (h : WellFormed p.functions) (edits : List Edit) :
    WellFormed (p.transform edits).functions := by
  induction edits generalizing p with
  | nil => exact h
  | cons edit edits ih => exact ih (h.apply edit)

end WellFormed

/-! ### Lowered files -/

/-- Linked declarations are well formed if their names are distinct: a name that none of them has is
called by no function. -/
theorem wellFormed_linkAll {declared : List Linked} (hnodup : (declared.map Linked.name).Nodup) :
    WellFormed (Linked.linkAll declared) where
  names := by
    have hnames : (Linked.linkAll declared).map Func.name = declared.map Linked.name := by
      rw [Linked.linkAll, List.map_map]
      rfl
    rwa [hnames]
  calls f hf target hb := by
    obtain ⟨d, -, rfl⟩ := List.mem_map.mp hf
    have hlen : (Linked.linkAll declared).length = (declared.map Linked.name).length := by
      simp [Linked.linkAll]
    rcases hbody : d.declaration.body with value | callee
    · rw [Linked.link_body_int hbody] at hb
      cases hb
    · rcases hidx : (declared.map Linked.name).idxOf? callee with _ | place
      · rw [Linked.link_body_unknown hbody hidx] at hb
        cases hb
      · rw [Linked.link_body_call hbody hidx] at hb
        cases hb
        rw [hlen]
        exact (List.idxOf?_eq_some_iff.mp hidx).1

/-- **Lowering makes well-formed functions of any files.** -/
theorem wellFormed_ofFiles (files : List ParsedFile) (options : CompileOptions) :
    WellFormed (Lowered.ofFiles files options).program.functions := by
  have hlinked : WellFormed (Lowered.linked files options.debugInfo).functions := by
    rw [linked_functions]
    exact wellFormed_linkAll (Linked.nodup_names_firsts _)
  unfold Lowered.ofFiles
  cases options.treeShaking with
  | false => exact hlinked
  | true => exact hlinked.retained

/-- A kept function has the name and the export of one that was there. -/
theorem exists_of_mem_keepMarked {functions : List Func} {marks : List Bool} {f' : Func}
    (h : f' ∈ keepMarked functions marks) :
    ∃ f ∈ functions, f'.name = f.name ∧ f'.exported = f.exported := by
  rw [keepMarked_eq_map_select, List.mem_map] at h
  obtain ⟨f, hselected, rfl⟩ := h
  exact ⟨f, (select_sublist marks functions).subset hselected, rfl, rfl⟩

/-- A function of lowered files has the name and the export of a first declaration. -/
theorem exists_first_of_mem_ofFiles {files : List ParsedFile} {options : CompileOptions} {f : Func}
    (hmember : f ∈ (Lowered.ofFiles files options).program.functions) :
    ∃ d ∈ Linked.firsts [] (Linked.all files), f.name = d.name ∧ f.exported = d.exported := by
  have hlinked : ∃ g ∈ (Lowered.linked files options.debugInfo).functions,
      f.name = g.name ∧ f.exported = g.exported := by
    unfold Lowered.ofFiles at hmember
    cases hshaking : options.treeShaking with
    | false =>
        simp only [hshaking] at hmember
        exact ⟨f, hmember, rfl, rfl⟩
    | true =>
        simp only [hshaking] at hmember
        exact exists_of_mem_keepMarked hmember
  obtain ⟨g, hlinked, hname, hsame⟩ := hlinked
  rw [linked_functions, Linked.linkAll, List.mem_map] at hlinked
  obtain ⟨d, hfirst, rfl⟩ := hlinked
  exact ⟨d, hfirst, hname, hsame⟩

end Wasmline
