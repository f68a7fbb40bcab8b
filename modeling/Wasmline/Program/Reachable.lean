import Wasmline.Note
import Wasmline.Program.Basic

/-!
# Keeping what exports reach

A function is needed when it is exported or called by one that is needed. The needed functions are
found by marking: from each export in turn, the chain of calls is followed and marked until it comes
to a function that is already marked, or ends. A marked function's callee is marked too, so stopping
there loses nothing.

Dropping the functions without a mark moves the others down. A call keeps its function: its target
becomes the number of kept functions in front of the old one. A call of an index that is no function
stays as it is.
-/

namespace Wasmline

/-- The function that the function at `index` calls. -/
def calleeAt (functions : List Func) (index : Nat) : Option Nat :=
  functions[index]?.bind fun f => f.body.target?

/-- Setting a mark that was clear leaves one clear mark fewer. -/
theorem count_false_set_lt {marks : List Bool} {i : Nat} (h : marks[i]? = some false) :
    (marks.set i true).count false < marks.count false := by
  induction marks generalizing i with
  | nil => simp at h
  | cons b marks ih =>
    cases i with
    | zero =>
      simp only [List.getElem?_cons_zero, Option.some.injEq] at h
      simp [h]
    | succ i =>
      simp only [List.getElem?_cons_succ] at h
      have := ih h
      simp only [List.set_cons_succ, List.count_cons]
      omega

/-- Marks the chain of calls from `index`, up to the first index that is marked or has no mark. -/
def mark (functions : List Func) (marks : List Bool) (index : Nat) : List Bool :=
  if marks[index]? = some false then
    match calleeAt functions index with
    | some target => mark functions (marks.set index true) target
    | none => marks.set index true
  else marks
termination_by marks.count false
decreasing_by exact count_false_set_lt ‹_›

/-- A mark for every function: whether some export reaches it. -/
def reachableMarks (functions : List Func) : List Bool :=
  functions.zipIdx.foldl (fun marks f => if f.1.exported then mark functions marks f.2 else marks)
    (List.replicate functions.length false)

/-- Where the function at `target` stands once only the marked ones are left. -/
def newIndex (marks : List Bool) (target : Nat) : Nat :=
  if target < marks.length then (marks.take target).count true else target

/-- The body with its call following the function it called. -/
def Body.retarget (marks : List Bool) : Body → Body
  | .const value => .const value
  | .call target => .call (newIndex marks target)

/-- The marked functions, in order, with their calls following the functions they called. -/
def keepMarked (functions : List Func) (marks : List Bool) : List Func :=
  (functions.zip marks).filterMap fun f =>
    if f.2 then some { f.1 with body := f.1.body.retarget marks } else none

namespace Program

/-- The program without the functions that no export reaches. -/
def retainReachable (p : Program) : Program :=
  { p with functions := keepMarked p.functions (reachableMarks p.functions) }

/-- What is noted when unreachable functions are dropped. -/
def retainNotes (p : Program) : List Note :=
  let removed := (reachableMarks p.functions).count false
  if removed = 0 then [] else [⟨.debug, .program, s!"Removing {removed} unused function(s)"⟩]

end Program

end Wasmline
