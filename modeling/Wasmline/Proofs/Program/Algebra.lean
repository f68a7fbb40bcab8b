import Wasmline.Program.Pass
import Wasmline.Proofs.Program.Folding

/-!
# The algebra of passes

Dropping unreachable functions and folding constants can be done in any order and any number of times.
What comes out is what the stronger of the two makes of the program at once: folded if anything was
folded, else without its unreachable functions if these were dropped, else as it was.

The argument is about marks. Marks *suffice* for some functions if every export has one and what a
marked function calls has one too (`Suffices`). The reachable marks are the least that suffice
(`Suffices.of_reachable`), and keeping any marks that suffice before the reachable ones makes no
difference (`Suffices.retained_keepMarked`): the reachable marks of what is kept are the old ones at
the kept places, and a call that is moved twice comes to where it is moved at once. A call of an index
that is no function is never moved, and stays a call of no function because the list only gets shorter.

* Dropping twice is dropping once (`retained_retained`): the reachable marks suffice.
* Folding after dropping is folding (`folded_retained`): the marks that suffice before folding suffice
  after it, and folding finds the same constants whether or not the rest was dropped
  (`Suffices.foldBodies_keepMarked`).

`transform_decided_by_strongest` says it of every sequence of edits.
-/

namespace Wasmline

/-! ### Members under a mark -/

section Select

variable {α β : Type} {marks marks' : List Bool} {i : Nat}

/-- The members of a list that have a mark, in order. -/
def select : List Bool → List α → List α
  | true :: marks, a :: l => a :: select marks l
  | false :: marks, _ :: l => select marks l
  | _, _ => []

/-- Marked functions are kept with their calls moved. -/
theorem keepMarked_eq_map_select (functions : List Func) (marks : List Bool) :
    keepMarked functions marks = (select marks functions).map (Func.retarget marks) := by
  suffices ∀ (functions : List Func) (marks' : List Bool),
      (functions.zip marks').filterMap (keep marks) =
        (select marks' functions).map (Func.retarget marks) from this functions marks
  intro functions marks'
  induction marks' generalizing functions with
  | nil => simp [select]
  | cons b marks' ih =>
      cases functions with
      | nil => simp [select]
      | cons f functions => cases b <;> simp [select, keep, ih]

theorem select_map (f : α → β) (marks : List Bool) (l : List α) :
    select marks (l.map f) = (select marks l).map f := by
  induction marks generalizing l with
  | nil => simp [select]
  | cons b marks ih =>
      cases l with
      | nil => simp [select]
      | cons a l => cases b <;> simp [select, ih]

/-- There is a selected member for every mark that is set. -/
theorem length_select {l : List α} (hlen : l.length = marks.length) :
    (select marks l).length = marks.count true := by
  induction marks generalizing l with
  | nil => simp [select]
  | cons b marks ih =>
      cases l with
      | nil => simp at hlen
      | cons a l =>
          have ih := ih (l := l) (by simpa using hlen)
          cases b <;> simp [select, ih]

/-- A marked member stands behind those that are marked in front of it. -/
theorem getElem?_select (h : marks[i]? = some true) (l : List α) :
    (select marks l)[(marks.take i).count true]? = l[i]? := by
  induction marks generalizing i l with
  | nil => simp at h
  | cons b marks ih =>
      cases l with
      | nil => simp [select]
      | cons a l =>
          cases i with
          | zero =>
              obtain rfl : b = true := by simpa using h
              simp [select]
          | succ i =>
              have h : marks[i]? = some true := by simpa using h
              cases b <;> simp [select, ih h]

theorem exists_of_mem_select {l : List α} {a : α} (h : a ∈ select marks l) :
    ∃ i : Nat, marks[i]? = some true ∧ l[i]? = some a := by
  induction marks generalizing l with
  | nil => simp [select] at h
  | cons b marks ih =>
      cases l with
      | nil => simp [select] at h
      | cons a' l =>
          have htail : a ∈ select marks l →
              ∃ i : Nat, (b :: marks)[i]? = some true ∧ (a' :: l)[i]? = some a := by
            intro h
            obtain ⟨i, hi, hl⟩ := ih h
            exact ⟨i + 1, by simpa using hi, by simpa using hl⟩
          cases b with
          | false => exact htail h
          | true =>
              rcases List.mem_cons.mp h with rfl | h
              · exact ⟨0, rfl, rfl⟩
              · exact htail h

/-- Selecting twice is selecting once, if the second marks are among the first. -/
theorem select_select (h : List.Forall₂ (fun b b' => b' = true → b = true) marks marks')
    (l : List α) : select (select marks marks') (select marks l) = select marks' l := by
  induction h generalizing l with
  | nil => simp [select]
  | @cons b b' marks marks' hb _ ih =>
      cases l with
      | nil => cases b <;> cases b' <;> simp [select]
      | cons a l => cases b <;> cases b' <;> simp_all [select]

/-- As many of the second marks are set among the selected ones as among all. -/
theorem count_take_select (h : List.Forall₂ (fun b b' => b' = true → b = true) marks marks')
    (i : Nat) :
    ((select marks marks').take ((marks.take i).count true)).count true =
      (marks'.take i).count true := by
  induction h generalizing i with
  | nil => simp [select]
  | @cons b b' marks marks' hb _ ih =>
      cases i with
      | zero => simp
      | succ i => cases b <;> cases b' <;> simp_all [select]

/-- A call that is moved twice comes to where it is moved at once. -/
theorem newIndex_newIndex (h : List.Forall₂ (fun b b' => b' = true → b = true) marks marks')
    (hi : marks[i]? ≠ some false) :
    newIndex (select marks marks') (newIndex marks i) = newIndex marks' i := by
  have hlen := h.length_eq
  have hsel : (select marks marks').length = marks.count true := length_select hlen.symm
  by_cases hlt : i < marks.length
  · have htrue := getElem?_eq_true_of_lt hlt hi
    have hin : (marks.take i).count true < (select marks marks').length := by
      have hget := getElem?_select htrue marks'
      rw [List.getElem?_eq_getElem (l := marks') (by omega)] at hget
      exact (List.getElem?_eq_some_iff.mp hget).1
    unfold newIndex
    rw [if_pos hlt, if_pos hin, if_pos (hlen ▸ hlt), count_take_select h]
  · -- an index that is no function is moved by neither
    have hcount : marks.count true ≤ marks.length := List.count_le_length
    unfold newIndex
    rw [if_neg hlt, if_neg (by omega), if_neg (by omega)]

/-- The function at a marked index is kept at its new index. -/
theorem getElem?_keepMarked_newIndex (functions : List Func) (h : marks[i]? = some true) :
    (keepMarked functions marks)[newIndex marks i]? =
      functions[i]?.map (Func.retarget marks) := by
  have hlt := (List.getElem?_eq_some_iff.mp h).1
  rw [keepMarked_eq_map_select, List.getElem?_map, newIndex, if_pos hlt, getElem?_select h]

theorem length_keepMarked {functions : List Func} (hlen : marks.length = functions.length) :
    (keepMarked functions marks).length = marks.count true := by
  rw [keepMarked_eq_map_select, List.length_map, length_select hlen.symm]

/-- Every place among the kept functions is the new index of a marked one. -/
theorem exists_newIndex_eq {j : Nat} (hj : j < marks.count true) :
    ∃ i, marks[i]? = some true ∧ newIndex marks i = j := by
  suffices ∃ i, marks[i]? = some true ∧ (marks.take i).count true = j by
    obtain ⟨i, htrue, hcount⟩ := this
    exact ⟨i, htrue, by rw [newIndex, if_pos (List.getElem?_eq_some_iff.mp htrue).1, hcount]⟩
  induction marks generalizing j with
  | nil => simp at hj
  | cons b marks ih =>
      cases b with
      | false =>
          obtain ⟨i, htrue, hcount⟩ := ih (by simpa using hj)
          exact ⟨i + 1, by simpa using htrue, by simpa using hcount⟩
      | true =>
          cases j with
          | zero => exact ⟨0, rfl, rfl⟩
          | succ j =>
              obtain ⟨i, htrue, hcount⟩ := ih (by simpa using hj)
              exact ⟨i + 1, by simpa using htrue, by simpa using hcount⟩

/-- Marked functions do not come to stand in one place. -/
theorem newIndex_injective {j : Nat} (hi : marks[i]? = some true) (hj : marks[j]? = some true)
    (h : newIndex marks i = newIndex marks j) : i = j := by
  have hkept := getElem?_kept_newIndex hi
  rw [h, getElem?_kept_newIndex hj] at hkept
  exact (Option.some.inj hkept).symm

end Select

/-! ### Marks that suffice -/

variable {functions : List Func} {marks : List Bool} {i j : Nat}

/-- There is a mark for every function, exports are marked, and so is what a marked function calls. -/
structure Suffices (functions : List Func) (marks : List Bool) : Prop where
  length : marks.length = functions.length
  closed : MarksClosed functions marks
  exports : ∀ e ∈ exportsOf functions, marks[e.2]? ≠ some false

/-- The reachable marks suffice. -/
theorem suffices_reachableMarks (functions : List Func) :
    Suffices functions (reachableMarks functions) where
  length := length_reachableMarks functions
  closed := marksClosed_reachableMarks functions
  exports e he := (marking_reachableMarks functions).covers e.2 (List.mem_map_of_mem he)

/-- The functions that some export reaches, with their calls moved. -/
def retained (functions : List Func) : List Func :=
  keepMarked functions (reachableMarks functions)

namespace Suffices

/-- What a function that is not dropped calls is not dropped. -/
theorem of_calls (h : Suffices functions marks) (hi : marks[i]? ≠ some false)
    (hij : Calls functions i j) : marks[j]? ≠ some false :=
  h.closed.of_calls h.length hi hij

/-- **The reachable marks are the least that suffice.** -/
theorem of_reachable (h : Suffices functions marks)
    (hi : (reachableMarks functions)[i]? = some true) : marks[i]? = some true := by
  obtain ⟨hlt, e, f, hf, he, hreach⟩ := reachableMarks_eq_true_iff.mp hi
  have hmarked := h.exports (f, e) (mem_exportsOf.mpr ⟨hf, he⟩)
  exact getElem?_eq_true_of_lt (h.length ▸ hlt) (h.closed.of_reaches h.length hmarked hreach)

theorem forall₂_reachable (h : Suffices functions marks) :
    List.Forall₂ (fun b b' => b' = true → b = true) marks (reachableMarks functions) := by
  refine List.forall₂_iff_get.mpr ⟨by simp [h.length], fun i hi hi' htrue => ?_⟩
  simp only [List.get_eq_getElem] at htrue ⊢
  have hmarked := h.of_reachable (i := i) (by rw [List.getElem?_eq_getElem hi', htrue])
  rwa [List.getElem?_eq_getElem hi, Option.some.injEq] at hmarked

/-- A kept function is needed among those that are kept exactly if it was needed. -/
theorem needed_keepMarked_iff (h : Suffices functions marks) (hi : marks[i]? = some true) :
    Needed (keepMarked functions marks) (newIndex marks i) ↔ Needed functions i := by
  have hmoved := moved_keepMarked h.length h.closed
  constructor
  · rintro ⟨e', g', hg', he', hreach⟩
    have hlt := (List.getElem?_eq_some_iff.mp hg').1
    rw [length_keepMarked h.length] at hlt
    obtain ⟨e, he, rfl⟩ := exists_newIndex_eq hlt
    rw [getElem?_keepMarked_newIndex functions he, Option.map_eq_some_iff] at hg'
    obtain ⟨g, hg, rfl⟩ := hg'
    obtain ⟨k, hk, hki, hback⟩ := hmoved.reaches_back (by simp [he]) hreach
    -- the index that the old chain comes to is the one that was asked about
    by_cases hlt : k < marks.length
    · obtain rfl := newIndex_injective (getElem?_eq_true_of_lt hlt hk) hi hki
      exact ⟨e, g, hg, he', hback⟩
    · have hbound := (List.getElem?_eq_some_iff.mp (getElem?_kept_newIndex hi)).1
      have hle : (kept marks).length ≤ marks.length := length_keptFrom_le 0 marks
      rw [← hki, newIndex, if_neg hlt] at hbound
      omega
  · rintro ⟨e, g, hg, he, hreach⟩
    have hmarked := h.exports (g, e) (mem_exportsOf.mpr ⟨hg, he⟩)
    have htrue := getElem?_eq_true_of_lt
      (h.length ▸ (List.getElem?_eq_some_iff.mp hg).1) hmarked
    refine ⟨newIndex marks e, g.retarget marks, ?_, he, (hmoved.reaches hmarked hreach).2⟩
    rw [getElem?_keepMarked_newIndex functions htrue, hg]
    rfl

/-- The reachable marks of what is kept are the old ones at the kept places. -/
theorem reachableMarks_keepMarked (h : Suffices functions marks) :
    reachableMarks (keepMarked functions marks) = select marks (reachableMarks functions) := by
  have hlen : (reachableMarks (keepMarked functions marks)).length = marks.count true := by
    rw [length_reachableMarks, length_keepMarked h.length]
  have hlen' : (select marks (reachableMarks functions)).length = marks.count true :=
    length_select (by simp [h.length])
  refine List.ext_getElem (hlen.trans hlen'.symm) fun j hj hj' => ?_
  obtain ⟨i, hi, rfl⟩ := exists_newIndex_eq (hlen ▸ hj)
  have hlt := (List.getElem?_eq_some_iff.mp hi).1
  have hsel : (select marks (reachableMarks functions))[newIndex marks i]? =
      (reachableMarks functions)[i]? := by
    rw [newIndex, if_pos hlt, getElem?_select hi]
  have hiff : (reachableMarks (keepMarked functions marks))[newIndex marks i]? = some true ↔
      (reachableMarks functions)[i]? = some true := by
    rw [reachableMarks_eq_true_iff, reachableMarks_eq_true_iff, h.needed_keepMarked_iff hi]
    rw [length_reachableMarks] at hj
    exact and_congr_left fun _ => iff_of_true hj (h.length ▸ hlt)
  rw [← hsel, List.getElem?_eq_getElem hj, List.getElem?_eq_getElem hj', Option.some.injEq,
    Option.some.injEq] at hiff
  exact Bool.eq_iff_iff.mpr hiff

/-- **Keeping marks that suffice makes no difference to what is reachable.** -/
theorem retained_keepMarked (h : Suffices functions marks) :
    retained (keepMarked functions marks) = retained functions := by
  unfold retained
  rw [h.reachableMarks_keepMarked, keepMarked_eq_map_select, keepMarked_eq_map_select functions marks,
    select_map, select_select h.forall₂_reachable, List.map_map, keepMarked_eq_map_select]
  refine List.map_congr_left fun f hf => ?_
  obtain ⟨i, hi, hf⟩ := exists_of_mem_select hf
  rcases hb : f.body with value | target
  · simp [Func.retarget, Body.retarget, hb]
  · have hcalls : Calls functions i target := calls_iff.mpr ⟨f, hf, hb⟩
    have hmarked := h.of_calls (by simp [h.of_reachable hi]) hcalls
    simp [Func.retarget, Body.retarget, hb, newIndex_newIndex h.forall₂_reachable hmarked]

end Suffices

/-- **Dropping twice is dropping once.** -/
theorem retained_retained (functions : List Func) :
    retained (retained functions) = retained functions :=
  (suffices_reachableMarks functions).retained_keepMarked

/-! ### Folding what is kept -/

/-- A folded function calls only what it called before. -/
theorem Calls.of_foldBodies (h : Calls (foldBodies functions) i j) : Calls functions i j := by
  obtain ⟨f', hf', hb'⟩ := calls_iff.mp h
  rw [getElem?_foldBodies, Option.map_eq_some_iff] at hf'
  obtain ⟨f, hf, rfl⟩ := hf'
  rcases hc : constantAt functions.toArray i with _ | value
  · rw [hc] at hb'
    exact calls_iff.mpr ⟨f, hf, hb'⟩
  · rw [hc] at hb'
    cases hb'

/-- Marks that suffice before folding suffice after it. -/
theorem Suffices.foldBodies (h : Suffices functions marks) : Suffices (foldBodies functions) marks where
  length := h.length.trans (forall₂_foldBodies functions).length_eq
  closed i j hi hij := h.closed i j hi hij.of_foldBodies
  exports := by
    rintro ⟨f', i⟩ he
    obtain ⟨hf', hexp'⟩ := mem_exportsOf.mp he
    obtain ⟨f, hf, -, hexp, -⟩ := exists_of_getElem?_foldBodies hf'
    exact h.exports (f, i) (mem_exportsOf.mpr ⟨hf, hexp ▸ hexp'⟩)

/-- Folding finds the same constants among the functions that are kept. -/
theorem Suffices.constantAt_keepMarked (h : Suffices functions marks)
    (hi : marks[i]? = some true) :
    constantAt (keepMarked functions marks).toArray (newIndex marks i) =
      constantAt functions.toArray i := by
  refine Option.ext fun value => ?_
  rw [constantAt_eq_some_iff, constantAt_eq_some_iff]
  exact ((moved_keepMarked h.length h.closed).ends_iff (by simp [hi]) _).symm

/-- **Folding what is kept is keeping what is folded.** -/
theorem Suffices.foldBodies_keepMarked (h : Suffices functions marks) :
    Wasmline.foldBodies (keepMarked functions marks) =
      keepMarked (Wasmline.foldBodies functions) marks := by
  have hlen : (Wasmline.foldBodies (keepMarked functions marks)).length = marks.count true := by
    rw [← (forall₂_foldBodies _).length_eq, length_keepMarked h.length]
  have hlen' : (keepMarked (Wasmline.foldBodies functions) marks).length = marks.count true :=
    length_keepMarked h.foldBodies.length
  refine List.ext_getElem? fun j => ?_
  by_cases hj : j < marks.count true
  · obtain ⟨i, hi, rfl⟩ := exists_newIndex_eq hj
    rw [getElem?_foldBodies, getElem?_keepMarked_newIndex functions hi, h.constantAt_keepMarked hi,
      getElem?_keepMarked_newIndex _ hi, getElem?_foldBodies, Option.map_map, Option.map_map]
    congr 1
    funext f
    cases constantAt functions.toArray i <;> rfl
  · rw [List.getElem?_eq_none (by omega), List.getElem?_eq_none (by omega)]

/-- Folding twice is folding once: what returns is a constant already. -/
theorem foldBodies_foldBodies (functions : List Func) :
    foldBodies (foldBodies functions) = foldBodies functions := by
  refine List.ext_getElem? fun i => ?_
  have hsame : constantAt (foldBodies functions).toArray i = constantAt functions.toArray i := by
    refine Option.ext fun value => ?_
    rw [constantAt_eq_some_iff, constantAt_eq_some_iff]
    exact (ends_foldBodies i _).symm
  rw [getElem?_foldBodies, hsame, getElem?_foldBodies, Option.map_map]
  congr 1
  funext f
  cases constantAt functions.toArray i <;> rfl

/-- The functions with their constants for bodies, as far as some export still reaches them. -/
def folded (functions : List Func) : List Func :=
  retained (foldBodies functions)

/-- **Folding after dropping is folding.** -/
theorem folded_retained (functions : List Func) : folded (retained functions) = folded functions := by
  have h := suffices_reachableMarks functions
  calc
    folded (retained functions)
      = retained (keepMarked (foldBodies functions) (reachableMarks functions)) :=
        congrArg retained h.foldBodies_keepMarked
    _ = folded functions := h.foldBodies.retained_keepMarked

/-- Dropping after folding is folding. -/
theorem retained_folded (functions : List Func) : retained (folded functions) = folded functions :=
  retained_retained (foldBodies functions)

/-- Folding twice is folding once. -/
theorem folded_folded (functions : List Func) : folded (folded functions) = folded functions := by
  calc
    folded (folded functions) = folded (foldBodies functions) := folded_retained (foldBodies functions)
    _ = folded functions := by rw [folded, folded, foldBodies_foldBodies]

/-! ### Sequences of edits -/

/-- Something that can be done to a program. -/
inductive Edit where
  | retainReachable
  | foldConstants
  | optimize
  | runPasses (names : List String)
  deriving DecidableEq, Repr

namespace Edit

/-- The program after an edit. -/
def apply (p : Program) : Edit → Program
  | retainReachable => p.retainReachable
  | foldConstants => p.foldConstants
  | optimize => p.optimize
  | runPasses names => p.runPasses names

/-- The edit folds constants. -/
def folds : Edit → Bool
  | foldConstants | optimize => true
  | _ => false

/-- The names of the passes that the edit asks for. -/
def passes : Edit → List String
  | runPasses names => names
  | _ => []

end Edit

/-- The program after some edits, one after the other. -/
def Program.transform (p : Program) (edits : List Edit) : Program :=
  edits.foldl Edit.apply p

/-- What is left of functions after some edits: the strongest of them decides. -/
def remaining (functions : List Func) (edits : List Edit) : List Func :=
  if edits.any Edit.folds then folded functions
  else if .retainReachable ∈ edits then retained functions
  else functions

/-- An edit in front of others counts with them. -/
theorem remaining_apply (p : Program) (edit : Edit) (edits : List Edit) :
    remaining (edit.apply p).functions edits = remaining p.functions (edit :: edits) := by
  unfold remaining
  cases edit with
  | retainReachable =>
      have hretained : (Edit.retainReachable.apply p).functions = retained p.functions := rfl
      simp [hretained, Edit.folds, folded_retained, retained_retained]
  | foldConstants =>
      have hfolded : (Edit.foldConstants.apply p).functions = folded p.functions := rfl
      simp [hfolded, Edit.folds, folded_folded, retained_folded]
  | optimize =>
      have hfolded : (Edit.optimize.apply p).functions = folded p.functions := rfl
      simp [hfolded, Edit.folds, folded_folded, retained_folded]
  | runPasses names =>
      have hsame : ((Edit.runPasses names).apply p).functions = p.functions := rfl
      simp [hsame, Edit.folds]

theorem functions_transform (p : Program) (edits : List Edit) :
    (p.transform edits).functions = remaining p.functions edits := by
  induction edits generalizing p with
  | nil => rfl
  | cons edit edits ih => exact (ih (edit.apply p)).trans (remaining_apply p edit edits)

/-- No edit bears on debug names. -/
theorem debugNames_transform (p : Program) (edits : List Edit) :
    (p.transform edits).debugNames = p.debugNames := by
  induction edits generalizing p with
  | nil => rfl
  | cons edit edits ih =>
      refine (ih (edit.apply p)).trans ?_
      cases edit <;> rfl

/-- Passes are recorded as they are asked for, as far as they are known. -/
theorem appliedPasses_transform (p : Program) (edits : List Edit) :
    (p.transform edits).appliedPasses =
      p.appliedPasses ++ (edits.flatMap Edit.passes).filter knownPasses.contains := by
  induction edits generalizing p with
  | nil => exact (List.append_nil _).symm
  | cons edit edits ih =>
      have hedit : (edit.apply p).appliedPasses =
          p.appliedPasses ++ edit.passes.filter knownPasses.contains := by
        cases edit with
        | runPasses names => rfl
        | _ => exact (List.append_nil _).symm
      refine (ih (edit.apply p)).trans ?_
      rw [hedit, List.flatMap_cons, List.filter_append, List.append_assoc]

/-- **The algebra of passes.** Whatever is done to a program, however often and in whichever order,

* its functions are the folded ones if anything was folded, else those that exports reach if the others
  were dropped, else those that it had;
* debug names stay as they are;
* of the passes that were asked for, the known ones are recorded in order behind those that were.

In particular both transformations are idempotent, and dropping functions before optimizing makes no
difference. -/
theorem transform_decided_by_strongest (p : Program) (edits : List Edit) :
    (p.transform edits).functions =
        (if edits.any Edit.folds then p.foldConstants.functions
        else if .retainReachable ∈ edits then p.retainReachable.functions
        else p.functions) ∧
      (p.transform edits).debugNames = p.debugNames ∧
      (p.transform edits).appliedPasses =
        p.appliedPasses ++ (edits.flatMap Edit.passes).filter knownPasses.contains ∧
      p.retainReachable.retainReachable = p.retainReachable ∧
      p.foldConstants.foldConstants = p.foldConstants ∧
      p.retainReachable.optimize = p.optimize := by
  -- two programs that went through edits differ in their functions only
  have hsame : ∀ functions functions', functions = functions' →
      ({ p with functions } : Program) = { p with functions := functions' } :=
    fun _ _ h => h ▸ rfl
  refine ⟨functions_transform p edits, debugNames_transform p edits,
    appliedPasses_transform p edits, ?_, ?_, ?_⟩
  · exact hsame _ _ (retained_retained p.functions)
  · exact hsame _ _ (folded_folded p.functions)
  · exact hsame _ _ (folded_retained p.functions)

end Wasmline
