import Mathlib
import Wasmline.Program.Fingerprint
import Wasmline.Proofs.AsmJs

/-!
# What is hashed tells programs apart

The bytes behind a fingerprint have neither lengths nor separators in them. They can be read back all
the same: they are the UTF-8 form of a text (`hashInput_eq_utf8`), and in that text the name of a
function goes up to the sign for its export, which is a character of no name, and its body up to the first
closing parenthesis. What is left starts with the next name, or, since a name is not empty, it is the
sign for debug names.

So two programs whose functions have names that can be declared are hashed from the same bytes exactly if
they have the same functions and agree on debug names: `hashInput_determines_program`. The names matter:
with the sign for an export in a name, one function can pass for two.
-/

namespace Wasmline

open Text Line

/-- A function of this name can be declared: some source text does it. -/
def Declarable (name : String) : Prop :=
  ∃ path text, ∃ d ∈ (ParsedFile.parse path text).functions, d.name = name

theorem Declarable.exists_identifier {name : String} (h : Declarable name) :
    ∃ i : Identifier, name.toList = i.text := by
  obtain ⟨path, text, d, hdeclared, rfl⟩ := h
  obtain ⟨i, hsame⟩ := exists_identifier_of_mem_functions hdeclared
  exact ⟨i, by rw [hsame, String.toList_ofList]⟩

/-! ### The hashed bytes as a text -/

/-- Equal bytes come of equal texts. -/
theorem eq_of_utf8_eq {s t : List Char} (hsame : utf8 s = utf8 t) : s = t := by
  have hread := ofUtf8?_utf8 (String.ofList s)
  rw [String.toList_ofList, hsame, ← String.toList_ofList (l := t), ofUtf8?_utf8] at hread
  exact (String.ofList_injective (Option.some.inj hread)).symm

/-- The character that a flag is hashed as. -/
def flagSign (flag : Bool) : Char :=
  if flag then '\x01' else '\x00'

theorem utf8_flagSign (flag : Bool) : utf8 [flagSign flag] = [flagByte flag] := by
  cases flag <;> rfl

theorem inName_flagSign (flag : Bool) : inName (flagSign flag) = false := by
  cases flag <;> decide

theorem flagSign_inj {flag flag' : Bool} (hsame : flagSign flag = flagSign flag') : flag = flag' := by
  revert flag flag'
  decide

/-- What a function adds to the hashed text. -/
def Func.hashText (f : Func) : List Char :=
  f.name.toList ++ flagSign f.exported :: f.body.describe.toList

/-- The text that a program is hashed as. -/
def Program.hashText (p : Program) : List Char :=
  p.functions.flatMap Func.hashText ++ [flagSign p.debugNames]

theorem Func.hashInput_eq_utf8 (f : Func) : f.hashInput = utf8 f.hashText := by
  rw [hashText, ← List.singleton_append, utf8_append, utf8_append, utf8_flagSign]
  rfl

/-- **What is hashed is the UTF-8 form of a text.** -/
theorem Program.hashInput_eq_utf8 (p : Program) : p.hashInput = utf8 p.hashText := by
  have hfunctions : p.functions.flatMap Func.hashInput = utf8 (p.functions.flatMap Func.hashText) := by
    rw [utf8, List.flatMap_assoc]
    exact List.flatMap_congr fun f _ => f.hashInput_eq_utf8
  rw [hashInput, hashText, utf8_append, utf8_flagSign, hfunctions]

/-! ### Reading a function back -/

namespace Body

/-- A body in words ends at its only closing parenthesis. -/
theorem exists_describe_eq (body : Body) :
    ∃ words, body.describe.toList = words ++ [')'] ∧ ')' ∉ words := by
  have hclosing : ")".toList = [')'] := rfl
  cases body with
  | const value =>
      refine ⟨"Const(".toList ++ (toString value.toInt).toList, ?_, ?_⟩
      · rw [describe, String.toList_append, String.toList_append, hclosing]
      · rw [List.mem_append, not_or]
        exact ⟨by decide, AsmJs.notMem_toString_toInt value (by decide) (by decide)⟩
  | call target =>
      refine ⟨"Call(".toList ++ target.repr.toList, ?_, ?_⟩
      · rw [describe, String.toList_append, String.toList_append, hclosing]
        rfl
      · rw [List.mem_append, not_or]
        exact ⟨by decide, notMem_toList_repr target (by decide)⟩

/-- The two kinds of body are told apart by the second letter. -/
theorem describe_const_ne_call (value : Int32) (target : Nat) :
    (const value).describe ≠ (call target).describe := by
  intro hsame
  have hletter : (const value).describe.toList[1]? = some 'o' := by
    rw [describe, String.append_assoc, String.toList_append]
    rfl
  have hletter' : (call target).describe.toList[1]? = some 'a' := by
    rw [describe, String.append_assoc, String.toList_append]
    rfl
  rw [hsame, hletter'] at hletter
  exact absurd hletter (by decide)

/-- **A body can be read back from its words.** -/
theorem describe_inj {body body' : Body} (hsame : body.describe = body'.describe) : body = body' := by
  cases body with
  | const value =>
      cases body' with
      | const value' =>
          have hnumber := (String.append_right_inj _).mp ((String.append_left_inj _).mp hsame)
          rw [Int32.toInt_inj.mp (Int.repr_injective hnumber)]
      | call target' => exact absurd hsame (describe_const_ne_call value target')
  | call target =>
      cases body' with
      | const value' => exact absurd hsame.symm (describe_const_ne_call value' target)
      | call target' =>
          have hnumber := (String.append_right_inj _).mp ((String.append_left_inj _).mp hsame)
          rw [Nat.repr_injective hnumber]

end Body

/-- **A function can be read back**, whatever comes behind it. -/
theorem Func.hashText_inj {f g : Func} {rest rest' : List Char} (hf : Declarable f.name)
    (hg : Declarable g.name) (hsame : f.hashText ++ rest = g.hashText ++ rest') :
    f = g ∧ rest = rest' := by
  obtain ⟨i, hname⟩ := hf.exists_identifier
  obtain ⟨j, hname'⟩ := hg.exists_identifier
  obtain ⟨words, hdescription, hclosed⟩ := f.body.exists_describe_eq
  obtain ⟨words', hdescription', hclosed'⟩ := g.body.exists_describe_eq
  rw [hashText, hashText, hdescription, hdescription'] at hsame
  simp only [List.append_assoc, List.cons_append, List.nil_append] at hsame
  -- The name goes up to the first character that is in no name.
  have hinside : ∀ c ∈ f.name.toList, inName c = true := hname ▸ i.inName_text
  have hinside' : ∀ c ∈ g.name.toList, inName c = true := hname' ▸ j.inName_text
  have hends (flag : Bool) (s : List Char) : ∀ c ∈ (flagSign flag :: s).head?, inName c = false := by
    intro c hhead
    rw [← Option.some.inj hhead]
    exact inName_flagSign flag
  obtain ⟨hnames, hsame⟩ := span_inj hinside hinside' (hends _ _) (hends _ _) hsame
  obtain ⟨hflags, hsame⟩ := List.cons.inj hsame
  -- The body goes up to its parenthesis.
  obtain ⟨hbodies, hrests⟩ := AsmJs.cut_inj hclosed hclosed' hsame
  have hbody : f.body = g.body := by
    apply Body.describe_inj
    rw [← String.toList_inj, hdescription, hdescription', hbodies]
  refine ⟨?_, hrests⟩
  obtain ⟨_, _, _⟩ := f
  obtain ⟨_, _, _⟩ := g
  rw [Func.mk.injEq]
  exact ⟨String.toList_inj.mp hnames, flagSign_inj hflags, hbody⟩

/-- A function does not start with the sign that ends the list of functions. -/
theorem Func.hashText_ne_flagSign {f : Func} (h : Declarable f.name) (flag : Bool)
    (rest : List Char) : [flagSign flag] ≠ f.hashText ++ rest := by
  obtain ⟨i, hname⟩ := h.exists_identifier
  rw [hashText, hname, Identifier.text, List.cons_append, List.cons_append]
  intro hsame
  have hfirst : inName i.first = true := i.inName_text _ List.mem_cons_self
  rw [← (List.cons.inj hsame).1, inName_flagSign] at hfirst
  cases hfirst

/-- **A list of functions can be read back**, and the flag behind it. -/
theorem hashTexts_inj {flag flag' : Bool} :
    (fs gs : List Func) → (∀ f ∈ fs, Declarable f.name) → (∀ g ∈ gs, Declarable g.name) →
      fs.flatMap Func.hashText ++ [flagSign flag] = gs.flatMap Func.hashText ++ [flagSign flag'] →
      fs = gs ∧ flag = flag'
  | [], [], _, _, hsame => ⟨rfl, flagSign_inj (List.cons.inj hsame).1⟩
  | [], g :: gs, _, hg, hsame => by
      rw [List.flatMap_cons, List.append_assoc] at hsame
      exact absurd hsame (Func.hashText_ne_flagSign (hg g List.mem_cons_self) _ _)
  | f :: fs, [], hf, _, hsame => by
      rw [List.flatMap_cons, List.append_assoc] at hsame
      exact absurd hsame.symm (Func.hashText_ne_flagSign (hf f List.mem_cons_self) _ _)
  | f :: fs, g :: gs, hf, hg, hsame => by
      obtain ⟨hfirst, hothers⟩ := List.forall_mem_cons.mp hf
      obtain ⟨hfirst', hothers'⟩ := List.forall_mem_cons.mp hg
      rw [List.flatMap_cons, List.flatMap_cons, List.append_assoc, List.append_assoc] at hsame
      obtain ⟨rfl, hrests⟩ := Func.hashText_inj hfirst hfirst' hsame
      obtain ⟨rfl, hflags⟩ := hashTexts_inj fs gs hothers hothers' hrests
      exact ⟨rfl, hflags⟩

/-- **Programs are hashed from the same bytes exactly if they have the same functions**, with their
names, exports, bodies and order, **and agree on debug names**. This is so for programs whose functions
have names that can be declared. -/
theorem hashInput_determines_program (p q : Program) (hp : ∀ f ∈ p.functions, Declarable f.name)
    (hq : ∀ f ∈ q.functions, Declarable f.name) :
    p.hashInput = q.hashInput ↔ p.functions = q.functions ∧ p.debugNames = q.debugNames := by
  constructor
  · intro hsame
    rw [p.hashInput_eq_utf8, q.hashInput_eq_utf8] at hsame
    exact hashTexts_inj p.functions q.functions hp hq (eq_of_utf8_eq hsame)
  · rintro ⟨hfunctions, hnames⟩
    rw [Program.hashInput, Program.hashInput, hfunctions, hnames]

/-- Two functions, of which the first or the second is exported. -/
def exportingProgram (first : Bool) (passes : List String) : Program :=
  ⟨[⟨"f", first, .call 1⟩, ⟨"Const1", !first, .const (-1)⟩], true, passes⟩

/-- Which of the two is exported shows in the hashed bytes, and which passes were run does not. -/
theorem exportingProgram_hashed :
    (exportingProgram true []).hashInput ≠ (exportingProgram false []).hashInput ∧
      (exportingProgram true []).hashInput = (exportingProgram true ["optimize"]).hashInput := by
  have hdeclarable : Declarable "f" ∧ Declarable "Const1" :=
    ⟨⟨"main", "function f(): i32 \x7b return 1; \x7d", by decide +kernel⟩,
      ⟨"main", "function Const1(): i32 \x7b return 1; \x7d", by decide +kernel⟩⟩
  have hnames (first : Bool) (passes : List String) :
      ∀ f ∈ (exportingProgram first passes).functions, Declarable f.name := by
    intro f hmember
    rcases List.mem_pair.mp hmember with rfl | rfl
    · exact hdeclarable.1
    · exact hdeclarable.2
  constructor
  · intro hsame
    have hfunctions :=
      ((hashInput_determines_program _ _ (hnames true []) (hnames false [])).mp hsame).1
    exact absurd hfunctions (by decide)
  · apply (hashInput_determines_program _ _ (hnames true []) (hnames true _)).mpr
    exact ⟨rfl, rfl⟩

-- A name that no text can declare makes one function pass for two.
example :
    (⟨[⟨"f\x00Const(1)g", false, .const 2⟩], false, []⟩ : Program).hashInput =
      (⟨[⟨"f", false, .const 1⟩, ⟨"g", false, .const 2⟩], false, []⟩ : Program).hashInput := by
  decide +kernel

end Wasmline
