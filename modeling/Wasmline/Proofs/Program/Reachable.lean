import Wasmline.Proofs.Program.CallChain

/-!
# Dropping what no export reaches

Two facts about `Program.retainReachable`, and what follows from them.

* **The marks are right** (`reachableMarks_eq_true_iff`): a function has a mark exactly if the chain of
  calls from some export comes to it. Marking stops at a function that has a mark already; nothing is
  lost by that, because marks are closed under calls whenever a chain has been marked to its end
  (`MarksClosed`). `Marking` says once what marking chains does to marks, and composes.
* **The calls follow** (`getElem?_keepMarked`): a marked function stands at its new index with its
  call moved to the new index of what it called; a call of an index that is no function stays, and
  still calls no function, since the list does not get longer.

So the chain from a kept function ends as before (`moved_keepMarked`), and a program without its
unreachable functions means the same (`sameMeaning_retainReachable`).
-/

namespace Wasmline

variable {functions : List Func} {marks marks' marks'' : List Bool} {i j : Nat}

/-! ### Marking chains -/

/-- What a marked function calls is marked as well, unless there is no mark for it. -/
def MarksClosed (functions : List Func) (marks : List Bool) : Prop :=
  ∀ i j, marks[i]? = some true → Calls functions i j → marks[j]? ≠ some false

/-- A mark that is there and not clear is set. -/
theorem getElem?_eq_true_of_lt (hi : i < marks.length) (h : marks[i]? ≠ some false) :
    marks[i]? = some true := by
  rw [List.getElem?_eq_getElem hi] at h ⊢
  rcases hb : marks[i] with _ | _
  · exact absurd (by rw [hb]) h
  · rfl

/-- Where no mark is lost, what is not clear stays so. -/
theorem ne_false_of_keeps (hlen : marks'.length = marks.length)
    (hkeeps : marks[j]? = some true → marks'[j]? = some true) (hj : marks[j]? ≠ some false) :
    marks'[j]? ≠ some false := by
  intro hfalse
  have hlt : j < marks.length := hlen ▸ (List.getElem?_eq_some_iff.mp hfalse).1
  rw [hkeeps (getElem?_eq_true_of_lt hlt hj)] at hfalse
  cases hfalse

/-- What marking the chains from `starts` makes of marks. -/
structure Marking (functions : List Func) (starts : List Nat) (marks marks' : List Bool) : Prop where
  length : marks'.length = marks.length
  /-- No mark is lost. -/
  keeps : ∀ j : Nat, marks[j]? = some true → marks'[j]? = some true
  /-- Every start is marked. -/
  covers : ∀ i ∈ starts, marks'[i]? ≠ some false
  /-- Only what a start reaches is marked. -/
  sound : ∀ j : Nat, marks'[j]? = some true →
    marks[j]? = some true ∨ ∃ i ∈ starts, Reaches functions i j
  closed : MarksClosed functions marks → MarksClosed functions marks'

/-- Marking nothing. -/
theorem Marking.refl (functions : List Func) (marks : List Bool) :
    Marking functions [] marks marks where
  length := rfl
  keeps _ h := h
  covers := by simp
  sound _ h := .inl h
  closed h := h

/-- Marking in two turns. -/
theorem Marking.trans {starts starts' : List Nat} (h : Marking functions starts marks marks')
    (h' : Marking functions starts' marks' marks'') :
    Marking functions (starts ++ starts') marks marks'' where
  length := h'.length.trans h.length
  keeps j hj := h'.keeps j (h.keeps j hj)
  covers i hi := by
    rcases List.mem_append.mp hi with hi | hi
    · exact ne_false_of_keeps h'.length (h'.keeps i) (h.covers i hi)
    · exact h'.covers i hi
  sound j hj := by
    rcases h'.sound j hj with hj | ⟨i, hi, hij⟩
    · rcases h.sound j hj with hj | ⟨i, hi, hij⟩
      · exact .inl hj
      · exact .inr ⟨i, List.mem_append_left _ hi, hij⟩
    · exact .inr ⟨i, List.mem_append_right _ hi, hij⟩
  closed hc := h'.closed (h.closed hc)

/-- Marking keeps the number of marks. -/
theorem length_mark (functions : List Func) (marks : List Bool) (i : Nat) :
    (mark functions marks i).length = marks.length := by
  fun_induction mark functions marks i with
  | case1 marks i h target hc ih => simpa using ih
  | case2 marks i h hc => simp
  | case3 marks i h => rfl

/-- A mark that is set shows at its index, and the others stay. -/
theorem getElem?_set_true (h : marks[i]? = some false) (j : Nat) :
    (marks.set i true)[j]? = if i = j then some true else marks[j]? := by
  have hi : i < marks.length := (List.getElem?_eq_some_iff.mp h).1
  rw [List.getElem?_set]
  split_ifs <;> rfl

/-- Marking loses no mark. -/
theorem mark_keeps (functions : List Func) (marks : List Bool) (i : Nat) {j : Nat}
    (hj : marks[j]? = some true) : (mark functions marks i)[j]? = some true := by
  fun_induction mark functions marks i with
  | case1 marks i h target hc ih =>
      apply ih
      rw [getElem?_set_true h]
      split_ifs <;> simp_all
  | case2 marks i h hc =>
      rw [getElem?_set_true h]
      split_ifs <;> simp_all
  | case3 marks i h => exact hj

/-- The start of a chain is marked. -/
theorem mark_covers (functions : List Func) (marks : List Bool) (i : Nat) :
    (mark functions marks i)[i]? ≠ some false := by
  rw [mark]
  split_ifs with h
  · have hset : (marks.set i true)[i]? = some true := by simp [getElem?_set_true h]
    rcases hc : calleeAt functions i with _ | target
    · simp [hset]
    · simp [mark_keeps functions _ target hset]
  · exact h

/-- Marking a chain marks only what is on it. -/
theorem mark_sound (functions : List Func) (marks : List Bool) (i : Nat) {j : Nat}
    (hj : (mark functions marks i)[j]? = some true) :
    marks[j]? = some true ∨ Reaches functions i j := by
  have hset : ∀ {marks : List Bool} {i : Nat}, marks[i]? = some false →
      (marks.set i true)[j]? = some true → marks[j]? = some true ∨ Reaches functions i j := by
    intro marks i h hj
    rw [getElem?_set_true h] at hj
    split_ifs at hj with hij
    · exact .inr (hij ▸ .refl)
    · exact .inl hj
  fun_induction mark functions marks i with
  | case1 marks i h target hc ih =>
      rcases ih hj with hj | hj
      · exact hset h hj
      · exact .inr (.head hc hj)
  | case2 marks i h hc => exact hset h hj
  | case3 marks i h => exact .inl hj

/-- What a newly marked function calls is not left clear: it is next on the chain. -/
theorem mark_follows (functions : List Func) (marks : List Bool) (i : Nat) {j k : Nat}
    (hj : marks[j]? = some false) (hnew : (mark functions marks i)[j]? = some true)
    (hjk : Calls functions j k) : (mark functions marks i)[k]? ≠ some false := by
  fun_induction mark functions marks i with
  | case1 marks i h target hc ih =>
      by_cases hij : i = j
      · subst hij
        rw [hjk.unique hc]
        exact mark_covers functions _ target
      · refine ih ?_ hnew
        rw [getElem?_set_true h, if_neg hij, hj]
  | case2 marks i h hc =>
      rw [getElem?_set_true h] at hnew
      split_ifs at hnew with hij
      · -- nothing is called at the end of the chain
        subst hij
        unfold Calls at hjk
        rw [hc] at hjk
        cases hjk
      · rw [hj] at hnew
        cases hnew
  | case3 marks i h =>
      rw [hj] at hnew
      cases hnew

/-- Closed marks are closed again once a chain is marked. -/
theorem marksClosed_mark (functions : List Func) (marks : List Bool) (i : Nat)
    (hc : MarksClosed functions marks) : MarksClosed functions (mark functions marks i) := by
  intro j k hj hjk
  have hlen := length_mark functions marks i
  by_cases hold : marks[j]? = some false
  · exact mark_follows functions marks i hold hj hjk
  · have hlt : j < marks.length := hlen ▸ (List.getElem?_eq_some_iff.mp hj).1
    have hk := hc j k (getElem?_eq_true_of_lt hlt hold) hjk
    exact ne_false_of_keeps hlen (mark_keeps functions marks i) hk

/-- Marking the chain from one index. -/
theorem marking_mark (functions : List Func) (marks : List Bool) (i : Nat) :
    Marking functions [i] marks (mark functions marks i) where
  length := length_mark functions marks i
  keeps _ hj := mark_keeps functions marks i hj
  covers := by simpa using mark_covers functions marks i
  sound j hj := by simpa using mark_sound functions marks i hj
  closed hc := marksClosed_mark functions marks i hc

/-- Marking the chains from those of some functions that are exported. -/
theorem marking_foldl (functions : List Func) :
    (es : List (Func × Nat)) → (marks : List Bool) →
      Marking functions ((es.filter fun e => e.1.exported).map Prod.snd) marks
        (es.foldl (fun marks e => if e.1.exported then mark functions marks e.2 else marks) marks)
  | [], marks => .refl functions marks
  | e :: es, marks => by
      simp only [List.foldl_cons, List.filter_cons]
      split_ifs with he
      · exact (marking_mark functions marks e.2).trans (marking_foldl functions es _)
      · exact marking_foldl functions es marks

/-- The marks of a program come from marking the chains from its exports. -/
theorem marking_reachableMarks (functions : List Func) :
    Marking functions ((exportsOf functions).map Prod.snd) (List.replicate functions.length false)
      (reachableMarks functions) :=
  marking_foldl functions functions.zipIdx _

/-- There is a mark for every function. -/
@[simp] theorem length_reachableMarks (functions : List Func) :
    (reachableMarks functions).length = functions.length := by
  simpa using (marking_reachableMarks functions).length

/-- The marks of a program are closed under calls. -/
theorem marksClosed_reachableMarks (functions : List Func) :
    MarksClosed functions (reachableMarks functions) := by
  apply (marking_reachableMarks functions).closed
  intro i j hi
  rw [List.getElem?_replicate] at hi
  split_ifs at hi
  cases hi

/-! ### What the marks say -/

/-- The chain of calls from some exported function comes to `j`. -/
def Needed (functions : List Func) (j : Nat) : Prop :=
  ∃ i f, functions[i]? = some f ∧ f.exported = true ∧ Reaches functions i j

/-- Calls lead from what is not clear to what is not clear. -/
theorem MarksClosed.of_calls (hc : MarksClosed functions marks)
    (hlen : marks.length = functions.length) (hi : marks[i]? ≠ some false)
    (hij : Calls functions i j) : marks[j]? ≠ some false :=
  hc i j (getElem?_eq_true_of_lt (hlen ▸ hij.lt_length) hi) hij

/-- Chains lead from what is not clear to what is not clear. -/
theorem MarksClosed.of_reaches (hc : MarksClosed functions marks)
    (hlen : marks.length = functions.length) (hi : marks[i]? ≠ some false)
    (hij : Reaches functions i j) : marks[j]? ≠ some false := by
  induction hij with
  | refl => exact hi
  | tail _ hjk ih => exact hc.of_calls hlen ih hjk

/-- **The marks are right**: a function is marked exactly if some export needs it. -/
theorem reachableMarks_eq_true_iff :
    (reachableMarks functions)[j]? = some true ↔ j < functions.length ∧ Needed functions j := by
  have hm := marking_reachableMarks functions
  constructor
  · intro hj
    have hlt := (List.getElem?_eq_some_iff.mp hj).1
    refine ⟨by simpa using hlt, ?_⟩
    rcases hm.sound j hj with hj | ⟨i, hi, hij⟩
    · rw [List.getElem?_replicate] at hj
      split_ifs at hj
      cases hj
    · obtain ⟨⟨f, i⟩, hf, rfl⟩ := List.mem_map.mp hi
      obtain ⟨hf, he⟩ := mem_exportsOf.mp hf
      exact ⟨i, f, hf, he, hij⟩
  · rintro ⟨hj, i, f, hf, he, hij⟩
    have hi : (reachableMarks functions)[i]? ≠ some false :=
      hm.covers i (List.mem_map.mpr ⟨(f, i), mem_exportsOf.mpr ⟨hf, he⟩, rfl⟩)
    exact getElem?_eq_true_of_lt (by simpa using hj)
      ((marksClosed_reachableMarks functions).of_reaches (length_reachableMarks functions) hi hij)

/-! ### Where the kept functions stand -/

/-- The indices of marks that are set, where the first mark has index `n`. -/
def keptFrom (n : Nat) : List Bool → List Nat
  | [] => []
  | b :: marks => if b then n :: keptFrom (n + 1) marks else keptFrom (n + 1) marks

/-- The indices of the functions that are kept, in order. -/
def kept (marks : List Bool) : List Nat :=
  keptFrom 0 marks

/-- A function as it is kept: its call follows the function it called. -/
def Func.retarget (marks : List Bool) (f : Func) : Func :=
  { f with body := f.body.retarget marks }

/-- A marked function is kept. -/
def keep (marks : List Bool) (f : Func × Bool) : Option Func :=
  if f.2 then some (f.1.retarget marks) else none

/-- Moving a call with its function is a renaming of bodies. -/
theorem Body.retarget_eq_rename (marks : List Bool) (body : Body) :
    body.retarget marks = body.rename (newIndex marks) := by
  cases body <;> rfl

theorem mem_keptFrom {n : Nat} : i ∈ keptFrom n marks ↔ ∃ d, i = n + d ∧ marks[d]? = some true := by
  induction marks generalizing n with
  | nil => simp [keptFrom]
  | cons b marks ih =>
      have htail : i ∈ keptFrom (n + 1) marks ↔ ∃ d, i = n + (d + 1) ∧ marks[d]? = some true := by
        rw [ih]
        refine exists_congr fun d => and_congr_left fun _ => ?_
        omega
      rw [← Nat.or_exists_add_one]
      cases b <;> simp [keptFrom, htail]

/-- The indices of kept functions are those of marks that are set. -/
@[simp] theorem mem_kept : i ∈ kept marks ↔ marks[i]? = some true := by
  simp [kept, mem_keptFrom]

theorem pairwise_keptFrom (n : Nat) (marks : List Bool) : (keptFrom n marks).Pairwise (· < ·) := by
  induction marks generalizing n with
  | nil => exact .nil
  | cons b marks ih =>
      cases b
      · exact ih (n + 1)
      · refine .cons (fun i hi => ?_) (ih (n + 1))
        obtain ⟨d, rfl, -⟩ := mem_keptFrom.mp hi
        omega

/-- Kept functions stay in order. -/
theorem pairwise_kept (marks : List Bool) : (kept marks).Pairwise (· < ·) :=
  pairwise_keptFrom 0 marks

theorem getElem?_keptFrom (n : Nat) (h : marks[i]? = some true) :
    (keptFrom n marks)[(marks.take i).count true]? = some (n + i) := by
  induction marks generalizing n i with
  | nil => simp at h
  | cons b marks ih =>
      cases i with
      | zero =>
          simp only [List.getElem?_cons_zero, Option.some.injEq] at h
          simp [keptFrom, h]
      | succ i =>
          simp only [List.getElem?_cons_succ] at h
          have hi := ih (n + 1) h
          rw [Nat.add_assoc, Nat.add_comm 1 i] at hi
          cases b <;> simpa [keptFrom] using hi

/-- The new index of a kept function is its place among the kept ones. -/
theorem getElem?_kept_newIndex (h : marks[i]? = some true) :
    (kept marks)[newIndex marks i]? = some i := by
  have hi : i < marks.length := (List.getElem?_eq_some_iff.mp h).1
  have := getElem?_keptFrom 0 h
  rw [Nat.zero_add] at this
  rwa [newIndex, if_pos hi]

theorem length_keptFrom_le (n : Nat) (marks : List Bool) :
    (keptFrom n marks).length ≤ marks.length := by
  induction marks generalizing n with
  | nil => exact le_rfl
  | cons b marks ih =>
      have := ih (n + 1)
      cases b <;> simp [keptFrom] <;> omega

theorem forall₂_keptFrom (marks : List Bool) :
    (functions : List Func) → (marks' : List Bool) → (n : Nat) →
      functions.length = marks'.length →
      List.Forall₂ (fun i f' => ∃ d f, i = n + d ∧ functions[d]? = some f ∧ f' = f.retarget marks)
        (keptFrom n marks') ((functions.zip marks').filterMap (keep marks))
  | [], [], _, _ => .nil
  | f :: functions, b :: marks', n, hlen => by
      have ih := forall₂_keptFrom marks functions marks' (n + 1) (by simpa using hlen)
      have htail : List.Forall₂
          (fun i f' => ∃ d g, i = n + d ∧ (f :: functions)[d]? = some g ∧ f' = g.retarget marks)
          (keptFrom (n + 1) marks') ((functions.zip marks').filterMap (keep marks)) := by
        refine ih.imp ?_
        rintro i f' ⟨d, g, rfl, hg, rfl⟩
        exact ⟨d + 1, g, by omega, by simpa using hg, rfl⟩
      cases b
      · exact htail
      · exact .cons ⟨0, f, rfl, rfl, rfl⟩ htail

/-- The kept functions, one by one. -/
theorem forall₂_kept (hlen : marks.length = functions.length) :
    List.Forall₂ (fun i f' => ∃ f, functions[i]? = some f ∧ f' = f.retarget marks)
      (kept marks) (keepMarked functions marks) := by
  refine (forall₂_keptFrom marks functions marks 0 hlen.symm).imp ?_
  rintro i f' ⟨d, f, rfl, hf, rfl⟩
  exact ⟨f, by simpa using hf, rfl⟩

/-- Related lists are related at every place. -/
theorem forall₂_getElem? {α β : Type} {R : α → β → Prop} {l : List α} {l' : List β}
    (h : List.Forall₂ R l l') {n : Nat} {a : α} (ha : l[n]? = some a) :
    ∃ b, l'[n]? = some b ∧ R a b := by
  obtain ⟨hn, rfl⟩ := List.getElem?_eq_some_iff.mp ha
  have hn' : n < l'.length := h.length_eq ▸ hn
  exact ⟨l'[n], List.getElem?_eq_getElem hn', h.get hn hn'⟩

/-- The list of kept functions is no longer than it was. -/
theorem length_keepMarked_le (hlen : marks.length = functions.length) :
    (keepMarked functions marks).length ≤ functions.length := by
  rw [← (forall₂_kept hlen).length_eq, ← hlen]
  exact length_keptFrom_le 0 marks

/-- **The calls follow**: what is not dropped stands at its new index, with its call renamed. -/
theorem getElem?_keepMarked (hlen : marks.length = functions.length) (hi : marks[i]? ≠ some false) :
    (keepMarked functions marks)[newIndex marks i]?.map Func.body =
      functions[i]?.map fun f => f.body.rename (newIndex marks) := by
  by_cases hlt : i < marks.length
  · have htrue := getElem?_eq_true_of_lt hlt hi
    obtain ⟨f', hf', f, hf, rfl⟩ :=
      forall₂_getElem? (forall₂_kept hlen) (getElem?_kept_newIndex htrue)
    rw [hf', hf]
    simp [Func.retarget, Body.retarget_eq_rename]
  · -- an index that is no function is its own new index, and the list has not grown
    have hle := length_keepMarked_le hlen
    rw [newIndex, if_neg hlt, List.getElem?_eq_none (by omega), List.getElem?_eq_none (by omega)]
    rfl

/-- What closed marks keep has moved to its new index. -/
theorem moved_keepMarked (hlen : marks.length = functions.length)
    (hc : MarksClosed functions marks) :
    Moved functions (keepMarked functions marks) (newIndex marks)
      (fun i => marks[i]? ≠ some false) where
  live_of_calls _ _ hi hij := hc.of_calls hlen hi hij
  body_eq _ hi := getElem?_keepMarked hlen hi

/-! ### The exports stay -/

theorem forall₂_exports_from (marks : List Bool) :
    (functions : List Func) → (marks' : List Bool) → (n m : Nat) →
      List.Forall₂ (fun f b => f.exported = true → b = true) functions marks' →
      List.Forall₂
        (fun e e' => e'.1.name = e.1.name ∧ ∃ d, e.2 = n + d ∧ marks'[d]? = some true ∧
          e'.2 = m + (marks'.take d).count true)
        ((functions.zipIdx n).filter fun e => e.1.exported)
        ((((functions.zip marks').filterMap (keep marks)).zipIdx m).filter fun e => e.1.exported)
  | [], _, _, _, .nil => .nil
  | f :: functions, b :: marks', n, m, .cons hb h => by
      cases b with
      | false =>
          have ih := forall₂_exports_from marks functions marks' (n + 1) m h
          have hf : f.exported = false := by simpa using hb
          simp only [List.zipIdx_cons, List.filter_cons, hf, List.zip_cons_cons]
          refine ih.imp ?_
          rintro e e' ⟨hname, d, he, hd, he'⟩
          exact ⟨hname, d + 1, by omega, by simpa using hd, by simpa using he'⟩
      | true =>
          have ih := forall₂_exports_from marks functions marks' (n + 1) (m + 1) h
          have htail := ih.imp (S := fun e e' => e'.1.name = e.1.name ∧ ∃ d, e.2 = n + d ∧
              (true :: marks')[d]? = some true ∧ e'.2 = m + ((true :: marks').take d).count true) (by
            rintro e e' ⟨hname, d, he, hd, he'⟩
            refine ⟨hname, d + 1, by omega, by simpa using hd, ?_⟩
            rw [he', List.take_succ_cons, List.count_cons_self]
            omega)
          have hkeep : ((f, true) :: functions.zip marks').filterMap (keep marks) =
              f.retarget marks :: (functions.zip marks').filterMap (keep marks) :=
            List.filterMap_cons_some rfl
          simp only [List.zip_cons_cons, hkeep, List.zipIdx_cons, List.filter_cons]
          have hexp : (f.retarget marks).exported = f.exported := rfl
          rw [hexp]
          split_ifs
          · exact .cons ⟨rfl, 0, rfl, rfl, rfl⟩ htail
          · exact htail

/-- The exports of a program whose exports are all marked stand at their new indices. -/
theorem forall₂_exports_keepMarked (hlen : marks.length = functions.length)
    (hexp : ∀ e ∈ exportsOf functions, marks[e.2]? ≠ some false) :
    List.Forall₂ (fun e e' => e'.1.name = e.1.name ∧ marks[e.2]? = some true ∧
        e'.2 = newIndex marks e.2)
      (exportsOf functions) (exportsOf (keepMarked functions marks)) := by
  have hmarked : List.Forall₂ (fun f b => f.exported = true → b = true) functions marks := by
    refine List.forall₂_iff_get.mpr ⟨hlen.symm, fun i hi hi' he => ?_⟩
    simp only [List.get_eq_getElem] at he ⊢
    have hmem : (functions[i], i) ∈ exportsOf functions :=
      mem_exportsOf.mpr ⟨List.getElem?_eq_getElem hi, he⟩
    have htrue := getElem?_eq_true_of_lt hi' (hexp _ hmem)
    rwa [List.getElem?_eq_getElem hi', Option.some.injEq] at htrue
  refine (forall₂_exports_from marks functions marks 0 0 hmarked).imp ?_
  rintro ⟨f, i⟩ ⟨f', i'⟩ ⟨hname, d, hi, hd, hi'⟩
  simp only [Nat.zero_add] at hi hi'
  subst hi hi'
  have hlt : i < marks.length := (List.getElem?_eq_some_iff.mp hd).1
  exact ⟨hname, hd, by simp [newIndex, hlt]⟩

/-- Keeping closed marks that every export has changes no meaning. -/
theorem sameMeaning_keepMarked (hlen : marks.length = functions.length)
    (hc : MarksClosed functions marks)
    (hexp : ∀ e ∈ exportsOf functions, marks[e.2]? ≠ some false) :
    SameMeaning functions (keepMarked functions marks) := by
  refine (forall₂_exports_keepMarked hlen hexp).imp ?_
  rintro e e' ⟨hname, htrue, he'⟩
  refine ⟨hname, fun ending => ?_⟩
  rw [he']
  exact (moved_keepMarked hlen hc).ends_iff (by simp [htrue]) ending

/-- **A program without its unreachable functions means the same.** -/
theorem sameMeaning_retainReachable (p : Program) :
    SameMeaning p.functions p.retainReachable.functions :=
  sameMeaning_keepMarked (length_reachableMarks p.functions)
    (marksClosed_reachableMarks p.functions) fun e he =>
      (marking_reachableMarks p.functions).covers e.2 (List.mem_map_of_mem he)

end Wasmline
