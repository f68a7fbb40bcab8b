import Mathlib.Data.Fintype.Card
import Wasmline.Program.Folding
import Wasmline.Proofs.Program.Reachable

/-!
# What folding constants makes of a program

* **The constant is found** (`constantAt_eq_some_iff`): following the calls for as many steps as there
  are functions finds a constant exactly if the chain returns it. A chain that returns needs a
  different number of steps from each of its functions, so it needs no more steps than there are
  functions (`StepsTo.le_length`).
* **No chain ends differently** (`ends_foldBodies`): a function that returns becomes its constant, and
  a chain that does not return has no such function on it, so that it stays as it is.
* **What is left** (`needed_foldBodies_iff`): an export that returns calls nothing any more, so what is
  still needed besides the exports lies on the chain of an export that does not return.

`foldConstants_normal_form` puts these together with what dropping functions does.
-/

namespace Wasmline

variable {functions : List Func} {i j m n : Nat} {value : Int32}

/-! ### Finding the constant -/

/-- At a constant, any step finds it. -/
theorem constantWithin_of_const {f : Func} (hfound : functions[i]? = some f)
    (hbody : f.body = .const value) (n : Nat) :
    constantWithin functions.toArray (n + 1) i = some value := by
  simp [constantWithin, hfound, hbody]

/-- At a call, one step goes to what is called. -/
theorem constantWithin_of_calls (h : Calls functions i j) (n : Nat) :
    constantWithin functions.toArray (n + 1) i = constantWithin functions.toArray n j := by
  obtain ⟨f, hf, hb⟩ := calls_iff.mp h
  simp [constantWithin, hf, hb]

/-- At an index that is no function, there is nothing to find. -/
theorem constantWithin_of_none (h : functions[i]? = none) (n : Nat) :
    constantWithin functions.toArray n i = none := by
  cases n <;> simp [constantWithin, h]

/-- A constant that is found is returned. -/
theorem ends_of_constantWithin (h : constantWithin functions.toArray n i = some value) :
    Ends functions i (.returns value) := by
  induction n generalizing i with
  | zero => simp [constantWithin] at h
  | succ n ih =>
      rcases hf : functions[i]? with _ | f
      · rw [constantWithin_of_none hf] at h
        cases h
      · rcases hb : f.body with v | target
        · rw [constantWithin_of_const hf hb] at h
          cases h
          exact ends_of_const hf hb
        · have hcalls := calls_iff.mpr ⟨f, hf, hb⟩
          rw [constantWithin_of_calls hcalls] at h
          exact .of_calls hcalls (ih h)

/-- A constant that is returned is found in some number of steps. -/
theorem exists_constantWithin (h : Ends functions i (.returns value)) :
    ∃ n, constantWithin functions.toArray n i = some value := by
  cases h with
  | returns hreached hfound hbody =>
      induction hreached using Relation.ReflTransGen.head_induction_on with
      | refl => exact ⟨1, constantWithin_of_const hfound hbody 0⟩
      | head hcalls _ ih =>
          obtain ⟨n, hn⟩ := ih
          exact ⟨n + 1, by rw [constantWithin_of_calls hcalls, hn]⟩

/-- More steps find the same constant. -/
theorem constantWithin_mono (hnm : n ≤ m) (h : constantWithin functions.toArray n i = some value) :
    constantWithin functions.toArray m i = some value := by
  induction n generalizing i m with
  | zero => simp [constantWithin] at h
  | succ n ih =>
      obtain ⟨m, rfl⟩ : ∃ k, m = k + 1 := ⟨m - 1, by omega⟩
      rcases hf : functions[i]? with _ | f
      · rw [constantWithin_of_none hf] at h
        cases h
      · rcases hb : f.body with v | target
        · rw [constantWithin_of_const hf hb] at h ⊢
          exact h
        · have hcalls := calls_iff.mpr ⟨f, hf, hb⟩
          rw [constantWithin_of_calls hcalls] at h ⊢
          exact ih (Nat.le_of_succ_le_succ hnm) h

/-- The chain from `i` finds its constant in `n` steps and no fewer. -/
def StepsTo (functions : List Func) (i n : Nat) : Prop :=
  constantWithin functions.toArray n i ≠ none ∧
    ∀ m < n, constantWithin functions.toArray m i = none

theorem StepsTo.unique (hm : StepsTo functions i m) (hn : StepsTo functions i n) : m = n := by
  rcases Nat.lt_trichotomy m n with h | h | h
  · exact absurd (hn.2 m h) hm.1
  · exact h
  · exact absurd (hm.2 n h) hn.1

/-- A chain that finds its constant in `n` steps passes a function for each smaller number. -/
theorem StepsTo.exists_of_le (h : StepsTo functions i n) (hm : 0 < m) (hmn : m ≤ n) :
    ∃ j, j < functions.length ∧ StepsTo functions j m := by
  induction n generalizing i with
  | zero => omega
  | succ n ih =>
      rcases hf : functions[i]? with _ | f
      · exact absurd (constantWithin_of_none hf _) h.1
      · by_cases hmn' : m = n + 1
        · subst hmn'
          exact ⟨i, (List.getElem?_eq_some_iff.mp hf).1, h⟩
        · rcases hb : f.body with v | target
          · -- a constant is found in one step, so `n` is zero and `m` has no room
            have hone := h.2 1 (by omega)
            rw [constantWithin_of_const hf hb] at hone
            cases hone
          · have hcalls := calls_iff.mpr ⟨f, hf, hb⟩
            refine ih (i := target) ⟨?_, fun k hk => ?_⟩ (by omega)
            · rw [← constantWithin_of_calls hcalls]
              exact h.1
            · rw [← constantWithin_of_calls hcalls]
              exact h.2 (k + 1) (by omega)

/-- A chain that finds its constant takes no more steps than there are functions. -/
theorem StepsTo.le_length (h : StepsTo functions i n) : n ≤ functions.length := by
  choose place hlt hplace using fun k : Fin n =>
    h.exists_of_le (m := k + 1) (Nat.succ_pos k) k.isLt
  have hinj : Function.Injective fun k : Fin n => (⟨place k, hlt k⟩ : Fin functions.length) := by
    intro k l hkl
    have hpl : place k = place l := congrArg Fin.val hkl
    have := (hplace k).unique (hpl ▸ hplace l)
    exact Fin.ext (by omega)
  simpa using Fintype.card_le_of_injective _ hinj

/-- **The constant is found**: it is exactly what the chain of calls returns. -/
theorem constantAt_eq_some_iff :
    constantAt functions.toArray i = some value ↔ Ends functions i (.returns value) := by
  refine ⟨ends_of_constantWithin, fun h => ?_⟩
  have hex := exists_constantWithin h
  have hsteps : StepsTo functions i (Nat.find hex) := by
    refine ⟨by simp [Nat.find_spec hex], fun m hm => ?_⟩
    rcases hv : constantWithin functions.toArray m i with _ | v
    · rfl
    · cases (ends_of_constantWithin hv).unique h
      exact absurd hv (Nat.find_min hex hm)
  exact constantWithin_mono (by simpa using hsteps.le_length) (Nat.find_spec hex)

/-- The chain from `i` does not return. -/
def NoReturn (functions : List Func) (i : Nat) : Prop :=
  ∀ value, ¬ Ends functions i (.returns value)

/-- No constant is found exactly if the chain does not return. -/
theorem constantAt_eq_none_iff :
    constantAt functions.toArray i = none ↔ NoReturn functions i := by
  rw [Option.eq_none_iff_forall_ne_some]
  exact forall_congr' fun value => not_congr constantAt_eq_some_iff

/-! ### Folded bodies -/

/-- A folded function: its constant for a body, if it returns one. -/
def Func.foldedTo (f : Func) : Option Int32 → Func
  | some value => { f with body := .const value }
  | none => f

theorem getElem?_foldBodies (functions : List Func) (i : Nat) :
    (foldBodies functions)[i]? =
      functions[i]?.map fun f => f.foldedTo (constantAt functions.toArray i) := by
  unfold foldBodies
  rw [List.getElem?_mapIdx]
  rfl

/-- A function that returns is its constant. -/
theorem getElem?_foldBodies_of_returns {f : Func} (hf : functions[i]? = some f)
    (h : Ends functions i (.returns value)) :
    (foldBodies functions)[i]? = some { f with body := .const value } := by
  rw [getElem?_foldBodies, hf, constantAt_eq_some_iff.mpr h]
  rfl

/-- A function that does not return stays as it is. -/
theorem getElem?_foldBodies_of_noReturn (h : NoReturn functions i) :
    (foldBodies functions)[i]? = functions[i]? := by
  rw [getElem?_foldBodies, constantAt_eq_none_iff.mpr h]
  exact Option.map_id_apply

/-- What returns is a function. -/
theorem Ends.exists_of_returns (h : Ends functions i (.returns value)) :
    ∃ f, functions[i]? = some f := by
  cases h with
  | @returns j f value hreached hfound hbody =>
      rcases Relation.ReflTransGen.cases_head hreached with rfl | ⟨k, hk, -⟩
      · exact ⟨f, hfound⟩
      · obtain ⟨g, hg, -⟩ := calls_iff.mp hk
        exact ⟨g, hg⟩

/-- What a chain that does not return calls does not return either. -/
theorem NoReturn.of_calls (h : NoReturn functions i) (hij : Calls functions i j) :
    NoReturn functions j :=
  fun value hj => h value (hj.of_calls hij)

theorem Body.rename_id (body : Body) : body.rename id = body := by
  cases body <;> rfl

/-- Functions that do not return stay where they are. -/
theorem moved_foldBodies (functions : List Func) :
    Moved functions (foldBodies functions) id (NoReturn functions) where
  live_of_calls _ _ hi hij := hi.of_calls hij
  body_eq i hi := by
    simp only [id_eq, getElem?_foldBodies_of_noReturn hi, Body.rename_id]

/-- Functions that do not return were where they are. -/
theorem moved_of_foldBodies (functions : List Func) :
    Moved (foldBodies functions) functions id (NoReturn functions) where
  live_of_calls i j hi hij := by
    rw [calls_iff, getElem?_foldBodies_of_noReturn hi, ← calls_iff] at hij
    exact hi.of_calls hij
  body_eq i hi := by
    simp only [id_eq, getElem?_foldBodies_of_noReturn hi, Body.rename_id]

/-- A chain that does not return comes to the same indices before and after folding. -/
theorem reaches_foldBodies_iff (h : NoReturn functions i) :
    Reaches (foldBodies functions) i j ↔ Reaches functions i j :=
  ⟨fun hij => ((moved_of_foldBodies functions).reaches h hij).2,
    fun hij => ((moved_foldBodies functions).reaches h hij).2⟩

/-- **No chain ends differently** once bodies are folded. -/
theorem ends_foldBodies (i : Nat) (ending : Ending) :
    Ends functions i ending ↔ Ends (foldBodies functions) i ending := by
  refine ends_iff_of_forall (fun ending h => ?_) ending
  by_cases hr : ∃ value, Ends functions i (.returns value)
  · obtain ⟨value, hr⟩ := hr
    obtain ⟨f, hf⟩ := hr.exists_of_returns
    rw [h.unique hr]
    exact ends_of_const (getElem?_foldBodies_of_returns hf hr) rfl
  · exact (moved_foldBodies functions).ends (not_exists.mp hr) h

/-! ### The exports of folded functions -/

/-- Folding keeps names and exports, function by function. -/
theorem forall₂_foldBodies (functions : List Func) :
    List.Forall₂ (fun f f' => f'.name = f.name ∧ f'.exported = f.exported) functions
      (foldBodies functions) := by
  have hlen : functions.length = (foldBodies functions).length := by simp [foldBodies]
  refine List.forall₂_iff_get.mpr ⟨hlen, fun i hi hi' => ?_⟩
  simp only [List.get_eq_getElem]
  have h := getElem?_foldBodies functions i
  rw [List.getElem?_eq_getElem hi, List.getElem?_eq_getElem hi', Option.map_some,
    Option.some.injEq] at h
  rw [h]
  cases constantAt functions.toArray i <;> exact ⟨rfl, rfl⟩

/-- Folding bodies changes no meaning. -/
theorem sameMeaning_foldBodies (functions : List Func) :
    SameMeaning functions (foldBodies functions) := by
  refine (forall₂_exportsOf (forall₂_foldBodies functions)).imp ?_
  rintro e e' ⟨hname, he'⟩
  refine ⟨hname, fun ending => ?_⟩
  rw [he']
  exact ends_foldBodies e.2 ending

/-- A function that is needed after folding: an export, or one on the chain of an export that does not
return. -/
def Survives (functions : List Func) (i : Nat) : Prop :=
  ∃ f, functions[i]? = some f ∧ (f.exported = true ∨
    ∃ e g, functions[e]? = some g ∧ g.exported = true ∧ NoReturn functions e ∧
      Reaches functions e i)

/-- A function of the folded list is the function of the same index, with its name and export. -/
theorem exists_of_getElem?_foldBodies {f' : Func} (h : (foldBodies functions)[i]? = some f') :
    ∃ f, functions[i]? = some f ∧ f'.name = f.name ∧ f'.exported = f.exported ∧
      ∀ value, f'.body = .const value ↔ Ends functions i (.returns value) := by
  rw [getElem?_foldBodies, Option.map_eq_some_iff] at h
  obtain ⟨f, hf, rfl⟩ := h
  refine ⟨f, hf, ?_⟩
  rcases hc : constantAt functions.toArray i with _ | v
  · refine ⟨rfl, rfl, fun value => ⟨fun hb => ends_of_const hf hb, fun hr => ?_⟩⟩
    exact absurd hr (constantAt_eq_none_iff.mp hc value)
  · have hv := constantAt_eq_some_iff.mp hc
    refine ⟨rfl, rfl, fun value => ⟨fun hb => ?_, fun hr => ?_⟩⟩
    · cases hb
      exact hv
    · cases hr.unique hv
      rfl

/-- **What is left**: the functions that exports still need after folding. -/
theorem needed_foldBodies_iff :
    i < (foldBodies functions).length ∧ Needed (foldBodies functions) i ↔ Survives functions i := by
  constructor
  · rintro ⟨hi, e, g', hg', he, hreach⟩
    obtain ⟨f, hf, -⟩ := exists_of_getElem?_foldBodies (List.getElem?_eq_getElem hi)
    obtain ⟨g, hg, -, hexp, -⟩ := exists_of_getElem?_foldBodies hg'
    rw [hexp] at he
    refine ⟨f, hf, ?_⟩
    by_cases hr : ∃ value, Ends functions e (.returns value)
    · -- an export that returns is a constant now, and calls nothing else
      obtain ⟨value, hr⟩ := hr
      have hlast := calleeAt_of_const (getElem?_foldBodies_of_returns hg hr) rfl
      rw [hreach.eq_of_calleeAt_none hlast, hg] at hf
      cases hf
      exact .inl he
    · have hno : NoReturn functions e := not_exists.mp hr
      exact .inr ⟨e, g, hg, he, hno, (reaches_foldBodies_iff hno).mp hreach⟩
  · rintro ⟨f, hf, hs⟩
    have hi : i < (foldBodies functions).length := by
      rw [← (forall₂_foldBodies functions).length_eq]
      exact (List.getElem?_eq_some_iff.mp hf).1
    have hexport : ∀ {e : Nat} {g : Func}, functions[e]? = some g → g.exported = true →
        ∃ g', (foldBodies functions)[e]? = some g' ∧ g'.exported = true := by
      intro e g hg he
      obtain ⟨g', hg', -, hexp⟩ := forall₂_getElem? (forall₂_foldBodies functions) hg
      exact ⟨g', hg', hexp.trans he⟩
    refine ⟨hi, ?_⟩
    rcases hs with he | ⟨e, g, hg, he, hno, hreach⟩
    · obtain ⟨f', hf', he'⟩ := hexport hf he
      exact ⟨i, f', hf', he', .refl⟩
    · obtain ⟨g', hg', he'⟩ := hexport hg he
      exact ⟨e, g', hg', he', (reaches_foldBodies_iff hno).mpr hreach⟩

/-- **Folding preserves meaning and reaches its normal form.** The exports keep their names, their
order and their endings. What is left, in the old order, are the functions that `Survives` describes,
each under its name, and the body of one of them is a constant exactly if its chain returned it. -/
theorem foldConstants_normal_form (p : Program) :
    SameMeaning p.functions p.foldConstants.functions ∧
      ∃ survivors : List Nat, survivors.Pairwise (· < ·) ∧
        (∀ i, i ∈ survivors ↔ Survives p.functions i) ∧
        List.Forall₂
          (fun i f' => ∃ f, p.functions[i]? = some f ∧ f'.name = f.name ∧
            f'.exported = f.exported ∧
            ∀ value, f'.body = .const value ↔ Ends p.functions i (.returns value))
          survivors p.foldConstants.functions := by
  refine ⟨(sameMeaning_foldBodies p.functions).trans (sameMeaning_retainReachable p.foldedInPlace),
    kept (reachableMarks (foldBodies p.functions)), pairwise_kept _, fun i => ?_, ?_⟩
  · rw [mem_kept, reachableMarks_eq_true_iff, needed_foldBodies_iff]
  · refine (forall₂_kept (length_reachableMarks (foldBodies p.functions))).imp ?_
    rintro i f' ⟨g, hg, rfl⟩
    obtain ⟨f, hf, hname, hexp, hbody⟩ := exists_of_getElem?_foldBodies hg
    refine ⟨f, hf, hname, hexp, fun value => ?_⟩
    rw [← hbody value]
    cases hb : g.body <;> simp [Func.retarget, Body.retarget, hb]

end Wasmline
