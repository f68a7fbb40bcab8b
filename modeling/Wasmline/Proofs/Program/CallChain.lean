import Mathlib.Data.Fintype.Pigeonhole
import Mathlib.Logic.Relation
import Wasmline.Program.Reachable

/-!
# Call chains and how they end

Running a function of a program follows its calls, one index after another. A function makes at most
one call, so there is one chain of calls from every index, and it ends in one of three ways:

* it **returns** the constant at which the chain arrives;
* it is **endless**: the chain enters a cycle of calls;
* it is **stuck** at an index that is no function.

`Reaches functions i j` says that the chain from `i` comes to `j`, and `Ends functions i ending` how
it ends. Every chain has exactly one ending (`exists_ends`, `Ends.unique`): a chain that never comes to
an end meets some index twice, because there are only so many functions.

`Moved.ends` is the one simulation argument: when the functions are moved to other indices and all
calls follow them, no chain ends differently. `SameMeaning` compares two lists of functions by what can
be seen from outside: the exports, in order and by name, and how running each of them ends.
-/

namespace Wasmline

/-! ### The chain of calls from an index -/

/-- The function at index `i` calls index `j`. -/
def Calls (functions : List Func) (i j : Nat) : Prop :=
  calleeAt functions i = some j

/-- The chain of calls from index `i` comes to index `j`, in zero or more calls. -/
def Reaches (functions : List Func) : Nat → Nat → Prop :=
  Relation.ReflTransGen (Calls functions)

/-- How running a function ends. -/
inductive Ending where
  | returns (value : Int32)
  /-- The calls go round in a cycle. -/
  | endless
  /-- An index is called that is no function. -/
  | stuck
  deriving DecidableEq, Repr

/-- Running the function at index `i` ends in this way. -/
inductive Ends (functions : List Func) (i : Nat) : Ending → Prop
  | returns {j : Nat} {f : Func} {value : Int32} (reached : Reaches functions i j)
      (found : functions[j]? = some f) (body : f.body = .const value) :
      Ends functions i (.returns value)
  | endless {j : Nat} (reached : Reaches functions i j)
      (cycle : Relation.TransGen (Calls functions) j j) : Ends functions i .endless
  | stuck {j : Nat} (reached : Reaches functions i j) (missing : functions[j]? = none) :
      Ends functions i .stuck

variable {functions : List Func} {i j k : Nat}

/-- The callee of an index is read off the body of its function. -/
theorem calleeAt_of_getElem? {f : Func} (h : functions[i]? = some f) :
    calleeAt functions i = f.body.target? := by
  simp [calleeAt, h]

/-- An index that is no function calls nothing. -/
theorem calleeAt_of_none (h : functions[i]? = none) : calleeAt functions i = none := by
  simp [calleeAt, h]

/-- A call is the body of a function of the program. -/
theorem calls_iff : Calls functions i j ↔ ∃ f, functions[i]? = some f ∧ f.body = .call j := by
  unfold Calls calleeAt
  rw [Option.bind_eq_some_iff]
  refine exists_congr fun f => and_congr_right fun _ => ?_
  cases f.body <;> simp [Body.target?]

/-- The indices that are called are those that some function calls. -/
theorem mem_calledIndices : j ∈ calledIndices functions ↔ ∃ i, Calls functions i j := by
  rw [calledIndices, List.mem_filterMap]
  constructor
  · rintro ⟨f, hf, hbody⟩
    obtain ⟨i, hi⟩ := List.mem_iff_getElem?.mp hf
    exact ⟨i, (calleeAt_of_getElem? hi).trans hbody⟩
  · rintro ⟨i, hcalls⟩
    obtain ⟨f, hf, hbody⟩ := calls_iff.mp hcalls
    exact ⟨f, List.mem_of_getElem? hf, by rw [hbody, Body.target?]⟩

/-- An index that calls something is the index of a function. -/
theorem Calls.lt_length (h : Calls functions i j) : i < functions.length := by
  obtain ⟨f, hf, -⟩ := calls_iff.mp h
  exact (List.getElem?_eq_some_iff.mp hf).1

/-- A function makes at most one call. -/
theorem Calls.unique (h : Calls functions i j) (h' : Calls functions i k) : j = k :=
  Option.some.inj (h.symm.trans h')

/-- Of two indices on one chain, one comes before the other. -/
theorem Reaches.total (h : Reaches functions i j) (h' : Reaches functions i k) :
    Reaches functions j k ∨ Reaches functions k j :=
  Relation.ReflTransGen.total_of_right_unique (fun _ _ _ => Calls.unique) h h'

/-- The chain goes nowhere from an index that calls nothing. -/
theorem Reaches.eq_of_calleeAt_none (h : Reaches functions i j)
    (hi : calleeAt functions i = none) : j = i := by
  rcases Relation.ReflTransGen.cases_head h with rfl | ⟨k, hk, -⟩
  · rfl
  · unfold Calls at hk
    rw [hi] at hk
    cases hk

/-- Two indices of one chain at which nothing is called are the same. -/
theorem Reaches.eq_of_last (h : Reaches functions i j) (h' : Reaches functions i k)
    (hj : calleeAt functions j = none) (hk : calleeAt functions k = none) : j = k := by
  rcases h.total h' with hjk | hkj
  · exact (hjk.eq_of_calleeAt_none hj).symm
  · exact hkj.eq_of_calleeAt_none hk

/-- What a cycle leads to lies on a cycle itself. -/
theorem Reaches.cycle (h : Reaches functions j k)
    (hj : Relation.TransGen (Calls functions) j j) :
    Relation.TransGen (Calls functions) k k := by
  induction h with
  | refl => exact hj
  | tail _ hkl ih =>
      obtain ⟨m, hkm, hm⟩ := Relation.TransGen.head'_iff.mp ih
      obtain rfl := hkl.unique hkm
      exact Relation.TransGen.tail' hm hkl

/-- No chain that enters a cycle comes to an index at which nothing is called. -/
theorem Reaches.calleeAt_ne_none_of_cycle (h : Reaches functions i j)
    (hj : Relation.TransGen (Calls functions) j j) (h' : Reaches functions i k) :
    calleeAt functions k ≠ none := by
  intro hk
  have hkj : Reaches functions k j ∨ Reaches functions j k := h'.total h
  have hk' : Relation.TransGen (Calls functions) k k := by
    rcases hkj with hkj | hjk
    · rwa [hkj.eq_of_calleeAt_none hk] at hj
    · exact hjk.cycle hj
  obtain ⟨m, hkm, -⟩ := Relation.TransGen.head'_iff.mp hk'
  unfold Calls at hkm
  rw [hk] at hkm
  cases hkm

/-! ### Every chain has exactly one ending -/

/-- The last index of a chain that returns calls nothing. -/
theorem calleeAt_of_const {f : Func} {value : Int32} (hfound : functions[i]? = some f)
    (hbody : f.body = .const value) : calleeAt functions i = none := by
  rw [calleeAt_of_getElem? hfound, hbody]
  rfl

/-- A chain has at most one ending. -/
theorem Ends.unique {a b : Ending} (ha : Ends functions i a) (hb : Ends functions i b) : a = b := by
  cases ha with
  | returns hr hfound hbody =>
      have hlast := calleeAt_of_const hfound hbody
      cases hb with
      | returns hr' hfound' hbody' =>
          obtain rfl := hr.eq_of_last hr' hlast (calleeAt_of_const hfound' hbody')
          rw [hfound] at hfound'
          cases hfound'
          rw [hbody] at hbody'
          cases hbody'
          rfl
      | endless hr' hcycle => exact absurd hlast (hr'.calleeAt_ne_none_of_cycle hcycle hr)
      | stuck hr' hmissing =>
          obtain rfl := hr.eq_of_last hr' hlast (calleeAt_of_none hmissing)
          rw [hfound] at hmissing
          cases hmissing
  | endless hr hcycle =>
      cases hb with
      | returns hr' hfound' hbody' =>
          exact absurd (calleeAt_of_const hfound' hbody') (hr.calleeAt_ne_none_of_cycle hcycle hr')
      | endless => rfl
      | stuck hr' hmissing =>
          exact absurd (calleeAt_of_none hmissing) (hr.calleeAt_ne_none_of_cycle hcycle hr')
  | stuck hr hmissing =>
      have hlast := calleeAt_of_none hmissing
      cases hb with
      | returns hr' hfound' hbody' =>
          obtain rfl := hr.eq_of_last hr' hlast (calleeAt_of_const hfound' hbody')
          rw [hfound'] at hmissing
          cases hmissing
      | endless hr' hcycle => exact absurd hlast (hr'.calleeAt_ne_none_of_cycle hcycle hr)
      | stuck => rfl

/-- The index that comes after `n` calls, where an index without a call stays. -/
def afterCalls (functions : List Func) (i n : Nat) : Nat :=
  (fun j => (calleeAt functions j).getD j)^[n] i

/-- One call further along a chain that does not end. -/
theorem calls_afterCalls (i : Nat) (n : Nat)
    (h : ∀ j, Reaches functions i j → calleeAt functions j ≠ none)
    (hn : Reaches functions i (afterCalls functions i n)) :
    Calls functions (afterCalls functions i n) (afterCalls functions i (n + 1)) := by
  obtain ⟨k, hk⟩ := Option.ne_none_iff_exists'.mp (h _ hn)
  have hnext : afterCalls functions i (n + 1) =
      (calleeAt functions (afterCalls functions i n)).getD (afterCalls functions i n) :=
    Function.iterate_succ_apply' _ n i
  unfold Calls
  rw [hnext, hk]
  rfl

/-- A chain that does not end goes on from its start. -/
theorem reaches_afterCalls (i : Nat)
    (h : ∀ j, Reaches functions i j → calleeAt functions j ≠ none) (n : Nat) :
    Reaches functions i (afterCalls functions i n) := by
  induction n with
  | zero => exact Relation.ReflTransGen.refl
  | succ n ih => exact Relation.ReflTransGen.tail ih (calls_afterCalls i n h ih)

/-- A chain that does not end goes from any of its places to every later one. -/
theorem transGen_afterCalls (i : Nat)
    (h : ∀ j, Reaches functions i j → calleeAt functions j ≠ none) {m n : Nat} (hmn : m < n) :
    Relation.TransGen (Calls functions) (afterCalls functions i m) (afterCalls functions i n) := by
  induction n, hmn using Nat.le_induction with
  | base => exact .single (calls_afterCalls i m h (reaches_afterCalls i h m))
  | succ n _ ih => exact ih.tail (calls_afterCalls i n h (reaches_afterCalls i h n))

/-- A chain that does not come to an end enters a cycle: there are only so many functions, so some
index is met twice. -/
theorem exists_cycle (i : Nat)
    (h : ∀ j, Reaches functions i j → calleeAt functions j ≠ none) :
    ∃ j, Reaches functions i j ∧ Relation.TransGen (Calls functions) j j := by
  have hlt : ∀ n, afterCalls functions i n < functions.length := fun n =>
    (calls_afterCalls i n h (reaches_afterCalls i h n)).lt_length
  obtain ⟨m, n, hne, heq⟩ := Finite.exists_ne_map_eq_of_infinite
    fun n => (⟨afterCalls functions i n, hlt n⟩ : Fin functions.length)
  have heq' : afterCalls functions i m = afterCalls functions i n := congrArg Fin.val heq
  rcases Nat.lt_or_gt_of_ne hne with hmn | hnm
  · refine ⟨_, reaches_afterCalls i h m, ?_⟩
    have := transGen_afterCalls i h hmn
    rwa [← heq'] at this
  · refine ⟨_, reaches_afterCalls i h n, ?_⟩
    have := transGen_afterCalls i h hnm
    rwa [heq'] at this

/-- Every chain has an ending. -/
theorem exists_ends (functions : List Func) (i : Nat) : ∃ ending, Ends functions i ending := by
  by_cases h : ∀ j, Reaches functions i j → calleeAt functions j ≠ none
  · obtain ⟨j, hj, hcycle⟩ := exists_cycle i h
    exact ⟨.endless, .endless hj hcycle⟩
  · push Not at h
    obtain ⟨j, hj, hlast⟩ := h
    rcases hf : functions[j]? with _ | f
    · exact ⟨.stuck, .stuck hj hf⟩
    · rw [calleeAt_of_getElem? hf] at hlast
      rcases hb : f.body with value | target
      · exact ⟨.returns value, .returns hj hf hb⟩
      · rw [hb] at hlast
        cases hlast

/-- Endings are carried over in both directions if they are in one, because every chain has exactly
one. -/
theorem ends_iff_of_forall {functions' : List Func}
    (h : ∀ ending, Ends functions i ending → Ends functions' j ending) (ending : Ending) :
    Ends functions i ending ↔ Ends functions' j ending := by
  refine ⟨h ending, fun hj => ?_⟩
  obtain ⟨ending', hi⟩ := exists_ends functions i
  rwa [hj.unique (h ending' hi)]

/-- A call ends as what it calls. -/
theorem Ends.of_calls (h : Calls functions i j) {ending : Ending} (hj : Ends functions j ending) :
    Ends functions i ending := by
  cases hj with
  | returns hr hfound hbody => exact .returns (.head h hr) hfound hbody
  | endless hr hcycle => exact .endless (.head h hr) hcycle
  | stuck hr hmissing => exact .stuck (.head h hr) hmissing

/-- A constant returns itself. -/
theorem ends_of_const {f : Func} {value : Int32} (hfound : functions[i]? = some f)
    (hbody : f.body = .const value) : Ends functions i (.returns value) :=
  .returns .refl hfound hbody

/-! ### Moving functions to other indices -/

/-- The body with its call at another index. -/
def Body.rename (move : Nat → Nat) : Body → Body
  | const value => .const value
  | call target => .call (move target)

/-- Functions have moved: from the live indices on, every function stands at its new index, with its
call moved along. -/
structure Moved (functions functions' : List Func) (move : Nat → Nat) (Live : Nat → Prop) : Prop where
  /-- Calls lead from live indices to live indices. -/
  live_of_calls : ∀ i j, Live i → Calls functions i j → Live j
  body_eq : ∀ i, Live i →
    functions'[move i]?.map Func.body = functions[i]?.map fun f => f.body.rename move

namespace Moved

variable {functions' : List Func} {move : Nat → Nat} {Live : Nat → Prop}
  (h : Moved functions functions' move Live)

include h

/-- A call of a function that has moved is a call of where its target has moved. -/
theorem calls (hi : Live i) (hij : Calls functions i j) : Calls functions' (move i) (move j) := by
  obtain ⟨f, hf, hb⟩ := calls_iff.mp hij
  have hm := h.body_eq i hi
  rw [hf, Option.map_some, Option.map_eq_some_iff] at hm
  obtain ⟨f', hf', hb'⟩ := hm
  exact calls_iff.mpr ⟨f', hf', by rw [hb', hb]; rfl⟩

/-- Chains follow the functions that have moved. -/
theorem reaches (hi : Live i) (hij : Reaches functions i j) :
    Live j ∧ Reaches functions' (move i) (move j) := by
  induction hij with
  | refl => exact ⟨hi, .refl⟩
  | tail _ hjk ih => exact ⟨h.live_of_calls _ _ ih.1 hjk, ih.2.tail (h.calls ih.1 hjk)⟩

/-- A call that a moved function makes is one that it made before, moved. -/
theorem calls_back {k' : Nat} (hi : Live i) (h' : Calls functions' (move i) k') :
    ∃ k, Calls functions i k ∧ move k = k' := by
  obtain ⟨f', hf', hb'⟩ := calls_iff.mp h'
  have hm := h.body_eq i hi
  rw [hf', Option.map_some, eq_comm, Option.map_eq_some_iff] at hm
  obtain ⟨f, hf, hb⟩ := hm
  rw [hb'] at hb
  rcases hbody : f.body with value | target
  · rw [hbody] at hb
    cases hb
  · rw [hbody] at hb
    cases hb
    exact ⟨target, calls_iff.mpr ⟨f, hf, hbody⟩, rfl⟩

/-- A chain among functions that have moved is one from before, moved. -/
theorem reaches_back {k' : Nat} (hi : Live i) (h' : Reaches functions' (move i) k') :
    ∃ k, Live k ∧ move k = k' ∧ Reaches functions i k := by
  induction h' with
  | refl => exact ⟨i, hi, rfl, .refl⟩
  | tail _ hlast ih =>
      obtain ⟨j, hj, rfl, hreach⟩ := ih
      obtain ⟨k, hjk, rfl⟩ := h.calls_back hj hlast
      exact ⟨k, h.live_of_calls _ _ hj hjk, rfl, hreach.tail hjk⟩

/-- Cycles follow the functions that have moved. -/
theorem transGen (hi : Live i) (hij : Relation.TransGen (Calls functions) i j) :
    Relation.TransGen (Calls functions') (move i) (move j) := by
  obtain ⟨k, hik, hkj⟩ := Relation.TransGen.head'_iff.mp hij
  exact .head' (h.calls hi hik) (h.reaches (h.live_of_calls _ _ hi hik) hkj).2

/-- **Moving functions changes no ending.** -/
theorem ends (hi : Live i) {ending : Ending} (he : Ends functions i ending) :
    Ends functions' (move i) ending := by
  cases he with
  | @returns j f value hreached hfound hbody =>
      obtain ⟨hj, hr⟩ := h.reaches hi hreached
      have hm := h.body_eq j hj
      rw [hfound, Option.map_some, Option.map_eq_some_iff] at hm
      obtain ⟨f', hf', hb'⟩ := hm
      exact .returns hr hf' (by rw [hb', hbody]; rfl)
  | endless hreached hcycle =>
      obtain ⟨hj, hr⟩ := h.reaches hi hreached
      exact .endless hr (h.transGen hj hcycle)
  | @stuck j hreached hmissing =>
      obtain ⟨hj, hr⟩ := h.reaches hi hreached
      have hm := h.body_eq j hj
      rw [hmissing, Option.map_none, Option.map_eq_none_iff] at hm
      exact .stuck hr hm

/-- Moving functions changes no ending, in either direction. -/
theorem ends_iff (hi : Live i) (ending : Ending) :
    Ends functions i ending ↔ Ends functions' (move i) ending :=
  ends_iff_of_forall (fun _ he => h.ends hi he) ending

end Moved

/-! ### What can be seen of a program -/

/-- Two lists of functions export the same names in the same order, and running an export of the one
ends as running that of the other does. -/
def SameMeaning (functions functions' : List Func) : Prop :=
  List.Forall₂
    (fun e e' => e'.1.name = e.1.name ∧
      ∀ ending, Ends functions e.2 ending ↔ Ends functions' e'.2 ending)
    (exportsOf functions) (exportsOf functions')

/-- An export is an exported function at its index. -/
theorem mem_exportsOf {f : Func} :
    (f, i) ∈ exportsOf functions ↔ functions[i]? = some f ∧ f.exported = true := by
  simp [exportsOf, List.mem_zipIdx_iff_getElem?]

theorem forall₂_exports_zipIdx {functions' : List Func}
    (h : List.Forall₂ (fun f f' => f'.name = f.name ∧ f'.exported = f.exported) functions functions')
    (n : Nat) :
    List.Forall₂ (fun e e' => e'.1.name = e.1.name ∧ e'.2 = e.2)
      ((functions.zipIdx n).filter fun e => e.1.exported)
      ((functions'.zipIdx n).filter fun e => e.1.exported) := by
  induction h generalizing n with
  | nil => exact .nil
  | cons hf _ ih =>
      simp only [List.zipIdx_cons, List.filter_cons, hf.2]
      split_ifs
      · exact .cons ⟨hf.1, rfl⟩ (ih (n + 1))
      · exact ih (n + 1)

/-- Functions that agree in names and exports have their exports at the same indices. -/
theorem forall₂_exportsOf {functions' : List Func}
    (h : List.Forall₂ (fun f f' => f'.name = f.name ∧ f'.exported = f.exported) functions
      functions') :
    List.Forall₂ (fun e e' => e'.1.name = e.1.name ∧ e'.2 = e.2) (exportsOf functions)
      (exportsOf functions') :=
  forall₂_exports_zipIdx h 0

/-- Relations between the members of two lists and of two further ones compose. -/
theorem forall₂_comp {α β γ : Type} {R : α → β → Prop} {S : β → γ → Prop} {T : α → γ → Prop}
    (hT : ∀ a b c, R a b → S b c → T a c) :
    {l : List α} → {l' : List β} → {l'' : List γ} →
      List.Forall₂ R l l' → List.Forall₂ S l' l'' → List.Forall₂ T l l''
  | _, _, _, .nil, .nil => .nil
  | _, _, _, .cons hab h, .cons hbc h' => .cons (hT _ _ _ hab hbc) (forall₂_comp hT h h')

/-- Functions mean the same as themselves. -/
theorem SameMeaning.refl (functions : List Func) : SameMeaning functions functions :=
  List.forall₂_same.mpr fun _ _ => ⟨rfl, fun _ => Iff.rfl⟩

/-- Meaning the same goes both ways. -/
theorem SameMeaning.symm {functions' : List Func} (h : SameMeaning functions functions') :
    SameMeaning functions' functions :=
  h.flip.imp fun _ _ hab => ⟨hab.1.symm, fun ending => (hab.2 ending).symm⟩

/-- Meaning the same can be composed. -/
theorem SameMeaning.trans {functions' functions'' : List Func} (h : SameMeaning functions functions')
    (h' : SameMeaning functions' functions'') : SameMeaning functions functions'' :=
  forall₂_comp (fun _ _ _ hab hbc => ⟨hbc.1.trans hab.1, fun ending =>
    (hab.2 ending).trans (hbc.2 ending)⟩) h h'

end Wasmline
