import Wasmline.Proofs.Program.Reachable

/-!
# Marking a chain of calls, whatever is marked already

Dropping functions starts from clear marks, one for each function. Here `mark` is taken by itself: any
functions, any start, and marks of any number that are set in any way.

* **It comes to an end.** `Walk.step` is one turn of the loop that sets the marks. Each turn but the last
  sets a clear mark, so with more turns than there are clear marks the walk is over, and it has made the
  marks of `mark` (`iterate_step`).
* **What is new** (`newlyMarked_iff`): the marks that were clear and are set now are those on the chain
  of calls from the start, up to the first index that was marked or has no mark. The walk also stops at
  a mark that it set itself, when the chain goes round in a cycle. Nothing is lost by that: what a newly
  marked function calls is never left clear (`mark_follows`), so the new marks go on to wherever the chain
  does.
* **On closed marks**, one for each function, nothing on the chain is left out at all, and the marks are
  closed again (`mark_eq_true_iff`).
-/

namespace Wasmline

variable {functions : List Func} {marks : List Bool} {start i j : Nat}

/-! ### The loop that sets the marks -/

/-- A walk along calls: the index that it has come to, unless it is over, and the marks. -/
structure Walk where
  current : Option Nat
  marks : List Bool

/-- One turn of a walk. A clear mark is set, and the walk goes on to what is called there. -/
def Walk.step (functions : List Func) (w : Walk) : Walk :=
  match w.current with
  | none => w
  | some index =>
      if w.marks[index]? = some false then ⟨calleeAt functions index, w.marks.set index true⟩
      else ⟨none, w.marks⟩

theorem step_of_clear (h : marks[i]? = some false) :
    Walk.step functions ⟨some i, marks⟩ = ⟨calleeAt functions i, marks.set i true⟩ :=
  if_pos h

theorem step_of_not_clear (h : marks[i]? ≠ some false) :
    Walk.step functions ⟨some i, marks⟩ = ⟨none, marks⟩ :=
  if_neg h

/-- A walk that is over stays as it is. -/
theorem iterate_step_none (functions : List Func) (marks : List Bool) (n : Nat) :
    (Walk.step functions)^[n] ⟨none, marks⟩ = ⟨none, marks⟩ :=
  Function.iterate_fixed rfl n

/-- **A walk is over** after as many turns as there are clear marks, and one more. -/
theorem iterate_step (functions : List Func) (marks : List Bool) (i : Nat) {n : Nat}
    (hn : marks.count false < n) :
    (Walk.step functions)^[n] ⟨some i, marks⟩ = ⟨none, mark functions marks i⟩ := by
  obtain ⟨n, rfl⟩ := Nat.exists_eq_succ_of_ne_zero (Nat.ne_zero_of_lt hn)
  rw [Function.iterate_succ_apply]
  -- a turn that goes on has used up a clear mark, so there are turns enough for the rest of the chain
  fun_induction mark functions marks i generalizing n with
  | case1 marks i h target hc ih =>
      have hfewer := count_false_set_lt h
      obtain ⟨n, rfl⟩ := Nat.exists_eq_succ_of_ne_zero (show n ≠ 0 by omega)
      rw [step_of_clear h, hc, Function.iterate_succ_apply]
      exact ih n (by omega)
  | case2 marks i h hc =>
      rw [step_of_clear h, hc]
      exact iterate_step_none functions _ n
  | case3 marks i h =>
      rw [step_of_not_clear h]
      exact iterate_step_none functions _ n

/-! ### The marks that are new -/

/-- The index that the `n`-th call from `start` comes to, if there are so many calls: a constant calls
nothing, and neither does an index that is no function. -/
def callPath (functions : List Func) (start : Nat) : Nat → Option Nat
  | 0 => some start
  | n + 1 => (callPath functions start n).bind (calleeAt functions)

/-- The first call from `start` goes to where the rest of the path starts. -/
theorem callPath_succ_of_calls (h : Calls functions start i) (n : Nat) :
    callPath functions start (n + 1) = callPath functions i n := by
  induction n with
  | zero => exact h
  | succ n ih => exact congrArg (Option.bind · (calleeAt functions)) ih

/-- The path of calls from `start` comes to `j` before it comes to any index that is marked or has no
mark. -/
def ComesClearTo (functions : List Func) (marks : List Bool) (start j : Nat) : Prop :=
  ∃ n, callPath functions start n = some j ∧
    ∀ m ≤ n, ∀ k, callPath functions start m = some k → marks[k]? = some false

/-- A mark that is clear after another was set was clear before. -/
theorem clear_of_set (h : marks[i]? = some false) (hj : (marks.set i true)[j]? = some false) :
    marks[j]? = some false := by
  rw [getElem?_set_true h] at hj
  split_ifs at hj
  · cases hj
  · exact hj

theorem ComesClearTo.refl (h : marks[i]? = some false) : ComesClearTo functions marks i i := by
  refine ⟨0, rfl, fun m hm k hk => ?_⟩
  obtain rfl := Nat.le_zero.mp hm
  obtain rfl := Option.some.inj hk
  exact h

/-- A path that is clear behind the first call is clear as a whole, if its start is. -/
theorem ComesClearTo.head {target : Nat} (h : marks[i]? = some false)
    (hcalls : Calls functions i target) (hj : ComesClearTo functions (marks.set i true) target j) :
    ComesClearTo functions marks i j := by
  obtain ⟨n, hn, hclear⟩ := hj
  refine ⟨n + 1, (callPath_succ_of_calls hcalls n).trans hn, fun m hm k hk => ?_⟩
  cases m with
  | zero =>
      obtain rfl := Option.some.inj hk
      exact h
  | succ m =>
      rw [callPath_succ_of_calls hcalls] at hk
      exact clear_of_set h (hclear m (Nat.le_of_succ_le_succ hm) k hk)

/-- A mark that was clear is set only where the path of calls comes to while all is clear. -/
theorem comesClearTo_of_mark (functions : List Func) (marks : List Bool) (i : Nat)
    (hj : marks[j]? = some false) (hnew : (mark functions marks i)[j]? = some true) :
    ComesClearTo functions marks i j := by
  fun_induction mark functions marks i with
  | case1 marks i h target hc ih =>
      by_cases hij : i = j
      · exact hij ▸ .refl h
      · refine .head h hc (ih ?_ hnew)
        rw [getElem?_set_true h, if_neg hij, hj]
  | case2 marks i h hc =>
      rw [getElem?_set_true h] at hnew
      split_ifs at hnew with hij
      · exact hij ▸ .refl h
      · rw [hj] at hnew
        cases hnew
  | case3 marks i h =>
      rw [hj] at hnew
      cases hnew

/-- A mark that was clear and is so no more is set. -/
theorem mark_eq_true_of_clear (hj : marks[j]? = some false)
    (h : (mark functions marks start)[j]? ≠ some false) :
    (mark functions marks start)[j]? = some true := by
  refine getElem?_eq_true_of_lt ?_ h
  rw [length_mark]
  exact (List.getElem?_eq_some_iff.mp hj).1

/-- All marks on the path of calls are set for as long as they were clear. -/
theorem mark_of_callPath (functions : List Func) (marks : List Bool) (start : Nat) {n : Nat}
    (hn : callPath functions start n = some j)
    (hclear : ∀ m ≤ n, ∀ k, callPath functions start m = some k → marks[k]? = some false) :
    (mark functions marks start)[j]? = some true := by
  refine mark_eq_true_of_clear (hclear n le_rfl j hn) ?_
  -- along the path and not along the walk, which stops where the path comes back to a mark of its own
  induction n generalizing j with
  | zero =>
      obtain rfl := Option.some.inj hn
      exact mark_covers functions marks start
  | succ n ih =>
      obtain ⟨i, hi, hcalls⟩ := Option.bind_eq_some_iff.mp hn
      have hiclear := hclear n (Nat.le_succ n) i hi
      have hbefore : (mark functions marks start)[i]? ≠ some false :=
        ih hi fun m hm => hclear m (Nat.le_succ_of_le hm)
      exact mark_follows functions marks start hiclear (mark_eq_true_of_clear hiclear hbefore) hcalls

/-- **What is newly marked** is on the path of calls, in front of the first index that was marked or has
no mark. -/
theorem newlyMarked_iff (functions : List Func) (marks : List Bool) (start j : Nat) :
    marks[j]? = some false ∧ (mark functions marks start)[j]? = some true ↔
      ComesClearTo functions marks start j := by
  constructor
  · rintro ⟨hj, hnew⟩
    exact comesClearTo_of_mark functions marks start hj hnew
  · rintro ⟨n, hn, hclear⟩
    exact ⟨hclear n le_rfl j hn, mark_of_callPath functions marks start hn hclear⟩

/-! ### Marks that are closed -/

/-- Marking a chain on closed marks, one for each function, marks whatever is on it. -/
theorem mark_eq_true_iff (hlen : marks.length = functions.length) (hc : MarksClosed functions marks) :
    (mark functions marks start)[j]? = some true ↔
      marks[j]? = some true ∨ j < functions.length ∧ Reaches functions start j := by
  have hmarking := marking_mark functions marks start
  have hlen' : (mark functions marks start).length = functions.length := hmarking.length.trans hlen
  constructor
  · intro hj
    refine (mark_sound functions marks start hj).imp_right fun hreach => ⟨?_, hreach⟩
    exact hlen' ▸ (List.getElem?_eq_some_iff.mp hj).1
  · rintro (hj | ⟨hj, hreach⟩)
    · exact hmarking.keeps j hj
    · refine getElem?_eq_true_of_lt (hlen' ▸ hj) ?_
      exact (hmarking.closed hc).of_reaches hlen' (mark_covers functions marks start) hreach

/-- **Marking a chain of calls, on any marks.** The walk that sets the marks is over after at most one
turn more than there are clear marks. The number of marks stays, and no mark is lost. The new marks are
exactly those on the path of calls from `start` in front of the first index that was marked or has no
mark. And if there is a mark for each function, and the marks are closed under calls of functions, then
they are closed again, and are the given marks and those of all functions on the path. -/
theorem mark_any_marks (functions : List Func) (marks : List Bool) (start : Nat) :
    (∀ n, marks.count false < n →
      (Walk.step functions)^[n] ⟨some start, marks⟩ = ⟨none, mark functions marks start⟩) ∧
    (mark functions marks start).length = marks.length ∧
    (∀ j : Nat, marks[j]? = some true → (mark functions marks start)[j]? = some true) ∧
    (∀ j : Nat, marks[j]? = some false ∧ (mark functions marks start)[j]? = some true ↔
      ComesClearTo functions marks start j) ∧
    (marks.length = functions.length → MarksClosed functions marks →
      MarksClosed functions (mark functions marks start) ∧
      ∀ j : Nat, (mark functions marks start)[j]? = some true ↔
        marks[j]? = some true ∨ j < functions.length ∧ Reaches functions start j) := by
  have hmarking := marking_mark functions marks start
  refine ⟨fun n hn => iterate_step functions marks start hn, hmarking.length, hmarking.keeps,
    newlyMarked_iff functions marks start, ?_⟩
  intro hlen hc
  exact ⟨hmarking.closed hc, fun j => mark_eq_true_iff hlen hc⟩

/-- A function that leads into a ring of two, one that calls a constant, the constant, and one that calls
no function. -/
def ringFunctions : List Func :=
  [⟨"lead", true, .call 1⟩, ⟨"tick", false, .call 2⟩, ⟨"tock", false, .call 1⟩,
    ⟨"twice", false, .call 4⟩, ⟨"two", false, .const 2⟩, ⟨"lost", false, .call 9⟩]

/-- The constant alone is marked. -/
def ringMarks : List Bool :=
  [false, false, false, false, true, false]

/-- The ring is marked from the function that leads to it, and nothing besides. -/
theorem ringFunctions_marked :
    ringMarks.length = ringFunctions.length ∧ MarksClosed ringFunctions ringMarks ∧
      MarksClosed ringFunctions (mark ringFunctions ringMarks 0) ∧
      mark ringFunctions ringMarks 0 = [true, true, true, false, true, false] ∧
      ((mark ringFunctions ringMarks 0)[2]? = some true ↔
        ringMarks[2]? = some true ∨ 2 < ringFunctions.length ∧ Reaches ringFunctions 0 2) := by
  have hclosed : MarksClosed ringFunctions ringMarks := by
    intro i j hi hij
    obtain rfl : i = 4 := List.mem_singleton.mp (mem_kept.mpr hi)
    exact absurd hij.symm (Option.some_ne_none j)
  obtain ⟨-, -, -, -, hmarks⟩ := mark_any_marks ringFunctions ringMarks 0
  obtain ⟨hclosed', hiff⟩ := hmarks rfl hclosed
  exact ⟨rfl, hclosed, hclosed', by decide +kernel, hiff 2⟩

end Wasmline
