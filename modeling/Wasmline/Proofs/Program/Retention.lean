import Mathlib.Data.List.Sort
import Wasmline.Proofs.Program.Reachable

/-!
# What exports reach is kept, and nothing else

`Program.retainReachable` works with marks and counts them to find new indices. Here is what it comes
to without either. There is a list of old indices, in order, and they are those of the functions that
some export reaches (`ReachedFromExport`). The functions that are left are those at the old indices,
one for one, with their names and exports. A constant stays. A call of a function becomes the call of
the index at which that function's old index is listed. A call of an index that is no function stays
as it is, and there still is no function at that index (`KeptAs`).

This is `Retains`, and it leaves no choice: the old indices are a sorted list with known members, and
each body is told from what it was (`Retains.unique`). So the program without its unreachable functions
is the only one that fits (`retainReachable_exact`).
-/

namespace Wasmline

variable {functions functions' functions'' : List Func} {marks : List Bool} {old : List Nat}
  {f f' f'' : Func} {i j : Nat}

/-! ### The functions that exports reach -/

/-- The function at `i` calls the function at `j`, and there is one. -/
def CallsFunction (functions : List Func) (i j : Nat) : Prop :=
  Calls functions i j ∧ j < functions.length

/-- Some exported function comes to the function at `j`, by zero or more calls of functions. -/
def ReachedFromExport (functions : List Func) (j : Nat) : Prop :=
  ∃ i f, functions[i]? = some f ∧ f.exported = true ∧
    Relation.ReflTransGen (CallsFunction functions) i j

/-- A chain of calls that comes to a function has called functions all the way: what calls something
is a function itself. -/
theorem reflTransGen_callsFunction_iff (hi : i < functions.length) :
    Relation.ReflTransGen (CallsFunction functions) i j ↔
      j < functions.length ∧ Reaches functions i j := by
  constructor
  · intro h
    refine ⟨?_, Relation.ReflTransGen.mono (fun _ _ hcalls => hcalls.1) _ _ h⟩
    rcases Relation.ReflTransGen.cases_tail h with rfl | ⟨k, -, hkj⟩
    · exact hi
    · exact hkj.2
  · rintro ⟨hj, h⟩
    induction h with
    | refl => exact .refl
    | tail _ hkl ih => exact (ih hkl.lt_length).tail ⟨hkl, hj⟩

/-- The functions that exports reach are those that some export needs. -/
theorem reachedFromExport_iff :
    ReachedFromExport functions j ↔ j < functions.length ∧ Needed functions j := by
  constructor
  · rintro ⟨i, f, hf, he, h⟩
    obtain ⟨hj, hreach⟩ :=
      (reflTransGen_callsFunction_iff (List.getElem?_eq_some_iff.mp hf).1).mp h
    exact ⟨hj, i, f, hf, he, hreach⟩
  · rintro ⟨hj, i, f, hf, he, hreach⟩
    exact ⟨i, f, hf, he,
      (reflTransGen_callsFunction_iff (List.getElem?_eq_some_iff.mp hf).1).mpr ⟨hj, hreach⟩⟩

/-! ### What is kept of functions -/

/-- A function `f` among `functions` is kept as `f'` among `functions'`, where `old` lists the old
indices of the latter. -/
structure KeptAs (functions functions' : List Func) (old : List Nat) (f f' : Func) : Prop where
  name : f'.name = f.name
  exported : f'.exported = f.exported
  const : ∀ value, f.body = .const value → f'.body = .const value
  /-- A call of a function follows it to its new index. -/
  call : ∀ target, f.body = .call target → target < functions.length →
    ∃ target', f'.body = .call target' ∧ old[target']? = some target
  /-- A call of no function stays as it is, and stays one. -/
  dangling : ∀ target, f.body = .call target → functions.length ≤ target →
    f'.body = .call target ∧ functions'.length ≤ target

/-- `functions'` are those of `functions` that exports reach, in order, and `old` their old indices. -/
structure Retains (functions functions' : List Func) (old : List Nat) : Prop where
  ordered : old.Pairwise (· < ·)
  mem_iff : ∀ i, i ∈ old ↔ ReachedFromExport functions i
  kept : List.Forall₂
    (fun i f' => ∃ f, functions[i]? = some f ∧ KeptAs functions functions' old f f') old functions'

/-- A marked function is kept with its call moved, if what it calls is marked as well. -/
theorem keptAs_retarget (hlen : marks.length = functions.length) (hc : MarksClosed functions marks)
    (hi : marks[i]? = some true) (hf : functions[i]? = some f) :
    KeptAs functions (keepMarked functions marks) (kept marks) f (f.retarget marks) where
  name := rfl
  exported := rfl
  const value hb := by simp [Func.retarget, hb, Body.retarget]
  call target hb hlt := by
    have hcalls : Calls functions i target := calls_iff.mpr ⟨f, hf, hb⟩
    have htrue := getElem?_eq_true_of_lt (hlen ▸ hlt) (hc i target hi hcalls)
    refine ⟨newIndex marks target, ?_, getElem?_kept_newIndex htrue⟩
    simp [Func.retarget, hb, Body.retarget]
  dangling target hb hle := by
    have hsame : newIndex marks target = target := if_neg (by omega)
    refine ⟨?_, (length_keepMarked_le hlen).trans hle⟩
    simp [Func.retarget, hb, Body.retarget, hsame]

/-- Keeping the reachable marks keeps what exports reach. -/
theorem retains_keepMarked (functions : List Func) :
    Retains functions (keepMarked functions (reachableMarks functions))
      (kept (reachableMarks functions)) where
  ordered := pairwise_kept _
  mem_iff i := by rw [mem_kept, reachableMarks_eq_true_iff, reachedFromExport_iff]
  kept := by
    have hlen := length_reachableMarks functions
    have hkept := (List.forall₂_and_left _ _).mpr ⟨fun i hi => mem_kept.mp hi, forall₂_kept hlen⟩
    refine hkept.imp ?_
    rintro i f' ⟨hi, f, hf, rfl⟩
    exact ⟨f, hf, keptAs_retarget hlen (marksClosed_reachableMarks functions) hi hf⟩

/-! ### There is no other way to keep it -/

/-- A function can be kept in one way only: no function stands at two new indices. -/
theorem KeptAs.unique (hnodup : old.Nodup) (h : KeptAs functions functions' old f f')
    (h' : KeptAs functions functions'' old f f'') : f' = f'' := by
  have hbody : f'.body = f''.body := by
    rcases hb : f.body with value | target
    · rw [h.const value hb, h'.const value hb]
    · rcases Nat.lt_or_ge target functions.length with hlt | hle
      · obtain ⟨new, hbody, hnew⟩ := h.call target hb hlt
        obtain ⟨new', hbody', hnew'⟩ := h'.call target hb hlt
        have hsame : new = new' :=
          (List.getElem?_inj (List.getElem?_eq_some_iff.mp hnew).1 hnodup).mp (hnew.trans hnew'.symm)
        rw [hbody, hbody', hsame]
      · rw [(h.dangling target hb hle).1, (h'.dangling target hb hle).1]
  have hname := h.name.trans h'.name.symm
  have hexported := h.exported.trans h'.exported.symm
  cases f'
  cases f''
  simp_all

/-- What is kept of functions is determined by them. -/
theorem Retains.unique {old' : List Nat} (h : Retains functions functions' old)
    (h' : Retains functions functions'' old') : functions' = functions'' := by
  obtain rfl : old = old' := h.ordered.eq_of_mem_iff h'.ordered fun i =>
    (h.mem_iff i).trans (h'.mem_iff i).symm
  have hnodup : old.Nodup := h.ordered.imp Nat.ne_of_lt
  have hsame : List.Forall₂ (· = ·) functions' functions'' := by
    refine forall₂_comp ?_ h.kept.flip h'.kept
    rintro f' i f'' ⟨f, hf, hkept⟩ ⟨g, hg, hkept'⟩
    obtain rfl : f = g := Option.some.inj (hf.symm.trans hg)
    exact hkept.unique hnodup hkept'
  rwa [List.forall₂_eq_eq_eq] at hsame

/-- **What exports reach is kept, and nothing else.** A program is what is left of `p` without its
unreachable functions exactly if its functions are those of `p` that some export reaches by calls of
functions, in their order, with names, exports and constants as they were and every call following the
function it called, while calls of no function stay; and nothing but the functions differs. -/
theorem retainReachable_exact (p q : Program) :
    q = p.retainReachable ↔
      (∃ old, Retains p.functions q.functions old) ∧
        q.debugNames = p.debugNames ∧ q.appliedPasses = p.appliedPasses := by
  constructor
  · rintro rfl
    exact ⟨⟨_, retains_keepMarked p.functions⟩, rfl, rfl⟩
  · rintro ⟨⟨old, h⟩, hdebug, hpasses⟩
    have hfunctions := h.unique (retains_keepMarked p.functions)
    cases q
    simp_all [Program.retainReachable]

end Wasmline
