import Mathlib
import Wasmline.AsmJs
import Wasmline.Proofs.Program.WellFormed
import Wasmline.Proofs.Source.Recognition

/-!
# The asm.js form tells programs apart

A script names the functions that it calls and exports, where a program has places and flags. It can be
read back all the same. The script is cut into pieces at signs that are no part of a name or a number: a
declaration into its name and what it returns (`declarationText_inj`), and the object of exports into
names (`objectText_inj`). If the names of functions are distinct, a name is as good as a place, and being
among the exported names is as good as a flag.

So two programs have the same script exactly if they have the same functions:
`asmJs_determines_functions`. What else is known of a program, such as the passes that were run,
does not show.
-/

namespace Wasmline

open Text Line

/-- Functions of which a script can be made: they are well formed, and their names are identifiers. -/
structure Scriptable (functions : List Func) : Prop extends WellFormed functions where
  identifiers : ∀ f ∈ functions, ∃ name : Identifier, f.name = String.ofList name.text

theorem Scriptable.notMem_name {functions : List Func} (h : Scriptable functions) {f : Func}
    (hmember : f ∈ functions) {sign : Char} (hother : inName sign = false) : sign ∉ f.name.toList := by
  obtain ⟨name, hsame⟩ := h.identifiers f hmember
  rw [hsame, String.toList_ofList]
  intro hinside
  rw [name.inName_text sign hinside] at hother
  cases hother

namespace AsmJs

/-! ### Cutting a text -/

/-- Texts that are cut at the first sign of a kind are the same in front of it and behind. -/
theorem cut_inj {sign : Char} {s t rest rest' : List Char} (hs : sign ∉ s) (ht : sign ∉ t)
    (hsame : s ++ sign :: rest = t ++ sign :: rest') : s = t ∧ rest = rest' := by
  obtain ⟨hfront, hbehind⟩ := span_of_notMem hs rest
  obtain ⟨hfront', hbehind'⟩ := span_of_notMem ht rest'
  rw [hsame] at hfront hbehind
  exact ⟨hfront.symm.trans hfront', (List.cons.inj (hbehind.symm.trans hbehind')).2⟩

theorem toList_pieces (s t u v w : String) :
    (s ++ t ++ u ++ v ++ w).toList =
      s.toList ++ (t.toList ++ (u.toList ++ (v.toList ++ w.toList))) := by
  simp only [String.toList_append, List.append_assoc]

/-! ### Declarations -/

/-- The declaration of a function of this name that returns this. -/
def declarationText (name value : List Char) : List Char :=
  "\n  function ".toList ++ (name ++ '(' ::
    (") \x7b\n    return ".toList ++ (value ++ ';' :: "\n  \x7d\n".toList)))

theorem toList_declaration (functions : List Func) (f : Func) :
    (declaration functions f).toList =
      declarationText f.name.toList (expression functions f.body).toList :=
  toList_pieces _ _ _ _ _

/-- **A declaration can be read back**, whatever comes behind it. -/
theorem declarationText_inj {name value name' value' rest rest' : List Char}
    (hn : '(' ∉ name) (hv : ';' ∉ value) (hn' : '(' ∉ name') (hv' : ';' ∉ value')
    (hsame : declarationText name value ++ rest = declarationText name' value' ++ rest') :
    name = name' ∧ value = value' ∧ rest = rest' := by
  unfold declarationText at hsame
  generalize "\n  function ".toList = front, ") \x7b\n    return ".toList = between,
    "\n  \x7d\n".toList = back at hsame
  simp only [List.append_assoc, List.cons_append] at hsame
  obtain ⟨hnames, hbehind⟩ := cut_inj hn hn' (List.append_cancel_left hsame)
  obtain ⟨hvalues, hends⟩ := cut_inj hv hv' (List.append_cancel_left hbehind)
  exact ⟨hnames, hvalues, List.append_cancel_left hends⟩

/-- Something else than a declaration is told by the letter behind the indentation. -/
theorem declarationText_ne (name value rest rest' : List Char) :
    declarationText name value ++ rest ≠ "\n  r".toList ++ rest' := by
  intro hsame
  have hletter : (declarationText name value ++ rest)[3]? = some 'f' := rfl
  have hletter' : ("\n  r".toList ++ rest')[3]? = some 'r' := rfl
  rw [hsame, hletter'] at hletter
  exact absurd hletter (by decide)

/-- What a function is declared as: its name, and the expression that it returns. -/
def declared (table : List Func) (f : Func) : String × String :=
  (f.name, expression table f.body)

/-- Nothing in what a function is declared as ends it too early. -/
def Closed (table : List Func) (f : Func) : Prop :=
  '(' ∉ f.name.toList ∧ ';' ∉ (expression table f.body).toList

/-- **A list of declarations can be read back.** It ends where something else comes. -/
theorem declarations_inj {table table' : List Func} {rest rest' : List Char} :
    (fs gs : List Func) → (∀ f ∈ fs, Closed table f) → (∀ g ∈ gs, Closed table' g) →
      fs.flatMap (fun f => (declaration table f).toList) ++ ("\n  r".toList ++ rest) =
        gs.flatMap (fun g => (declaration table' g).toList) ++ ("\n  r".toList ++ rest') →
      fs.map (declared table) = gs.map (declared table') ∧ rest = rest'
  | [], [], _, _, hsame => ⟨rfl, List.append_cancel_left hsame⟩
  | [], g :: gs, _, _, hsame => by
      rw [List.flatMap_cons, List.append_assoc, toList_declaration] at hsame
      exact absurd hsame.symm (declarationText_ne _ _ _ _)
  | f :: fs, [], _, _, hsame => by
      rw [List.flatMap_cons, List.append_assoc, toList_declaration] at hsame
      exact absurd hsame (declarationText_ne _ _ _ _)
  | f :: fs, g :: gs, hf, hg, hsame => by
      obtain ⟨⟨hname, hvalue⟩, hf⟩ := List.forall_mem_cons.mp hf
      obtain ⟨⟨hname', hvalue'⟩, hg⟩ := List.forall_mem_cons.mp hg
      rw [List.flatMap_cons, List.flatMap_cons, List.append_assoc, List.append_assoc,
        toList_declaration, toList_declaration] at hsame
      obtain ⟨hnames, hvalues, hsame⟩ := declarationText_inj hname hvalue hname' hvalue' hsame
      obtain ⟨hothers, hends⟩ := declarations_inj fs gs hf hg hsame
      have hfirst : declared table f = declared table' g :=
        Prod.ext (String.toList_inj.mp hnames) (String.toList_inj.mp hvalues)
      exact ⟨congrArg₂ List.cons hfirst hothers, hends⟩

/-! ### Exports -/

/-- The names of the exported functions. -/
def exportedNames (functions : List Func) : List String :=
  (functions.filter Func.exported).map Func.name

/-- The entry of an exported function in the object. -/
def entryText (name : String) : List Char :=
  name.toList ++ ':' :: ' ' :: name.toList

/-- The entries behind the first. -/
def moreText (names : List String) : List Char :=
  names.flatMap fun name => ',' :: ' ' :: entryText name

/-- The object that exports functions of these names. -/
def objectText : List String → List Char
  | [] => ['\x7b', '\x7d']
  | name :: names => '\x7b' :: ' ' :: (entryText name ++ moreText names ++ [' ', '\x7d'])

theorem intercalate_entries (name : String) (names : List String) :
    [',', ' '].intercalate ((name :: names).map entryText) = entryText name ++ moreText names := by
  induction names generalizing name with
  | nil => exact List.intercalate_singleton.trans (List.append_nil _).symm
  | cons next names ih =>
      rw [List.map_cons, List.map_cons, List.intercalate_cons_cons, ← List.map_cons, ih]
      simp [moreText]

theorem toList_exportsObject (functions : List Func) :
    (exportsObject functions).toList = objectText (exportedNames functions) := by
  unfold exportsObject exportedNames
  cases functions.filter Func.exported with
  | nil => rfl
  | cons f fs =>
      have hentries : ((f :: fs).map fun f => f.name ++ ": " ++ f.name).map String.toList =
          ((f :: fs).map Func.name).map entryText := by
        rw [List.map_map, List.map_map]
        refine List.map_congr_left fun f _ => ?_
        simp [entryText]
      rw [String.toList_append, String.toList_append, String.toList_intercalate, hentries]
      exact congrArg (fun s => '\x7b' :: ' ' :: (s ++ [' ', '\x7d']))
        (intercalate_entries f.name (fs.map Func.name))

theorem entryText_inj {name name' : String} {rest rest' : List Char} (h : ':' ∉ name.toList)
    (h' : ':' ∉ name'.toList) (hsame : entryText name ++ rest = entryText name' ++ rest') :
    name = name' ∧ rest = rest' := by
  unfold entryText at hsame
  simp only [List.append_assoc, List.cons_append] at hsame
  obtain ⟨hnames, hsame⟩ := cut_inj h h' hsame
  obtain rfl := String.toList_inj.mp hnames
  exact ⟨rfl, List.append_cancel_left (List.cons.inj hsame).2⟩

theorem moreText_inj : (names names' : List String) → (∀ n ∈ names, ':' ∉ n.toList) →
    (∀ n ∈ names', ':' ∉ n.toList) → moreText names = moreText names' → names = names'
  | [], [], _, _, _ => rfl
  | [], _ :: _, _, _, hsame => by cases hsame
  | _ :: _, [], _, _, hsame => by cases hsame
  | name :: names, name' :: names', h, h', hsame => by
      obtain ⟨hfirst, hothers⟩ := List.forall_mem_cons.mp h
      obtain ⟨hfirst', hothers'⟩ := List.forall_mem_cons.mp h'
      have hentries := (List.cons.inj (List.cons.inj hsame).2).2
      obtain ⟨rfl, hmore⟩ := entryText_inj hfirst hfirst' hentries
      rw [moreText_inj names names' hothers hothers' hmore]

/-- **The object of exports can be read back.** -/
theorem objectText_inj {names names' : List String} (h : ∀ n ∈ names, ':' ∉ n.toList)
    (h' : ∀ n ∈ names', ':' ∉ n.toList) (hsame : objectText names = objectText names') :
    names = names' := by
  cases names with
  | nil =>
      cases names' with
      | nil => rfl
      | cons => simp [objectText] at hsame
  | cons name names =>
      cases names' with
      | nil => simp [objectText] at hsame
      | cons name' names' =>
          obtain ⟨hfirst, hothers⟩ := List.forall_mem_cons.mp h
          obtain ⟨hfirst', hothers'⟩ := List.forall_mem_cons.mp h'
          have hentries := List.append_cancel_right (List.cons.inj (List.cons.inj hsame).2).2
          obtain ⟨rfl, hmore⟩ := entryText_inj hfirst hfirst' hentries
          rw [moreText_inj names names' hothers hothers' hmore]

/-! ### Scripts -/

/-- Nothing but the functions of a program shows in its script. -/
theorem render_congr {p q : Program} (hsame : p.functions = q.functions) : render p = render q := by
  obtain ⟨functions, _, _⟩ := p
  obtain ⟨functions', _, _⟩ := q
  obtain rfl : functions = functions' := hsame
  rfl

theorem toList_render (p : Program) :
    (render p).toList =
      "function asmModule(stdlib, foreign, buffer) \x7b\n  \"use asm\";\n".toList ++
        (p.functions.flatMap (fun f => (declaration p.functions f).toList) ++ ("\n  r".toList ++
          ("eturn ".toList ++ (objectText (exportedNames p.functions) ++ ";\n\x7d\n".toList)))) := by
  have hdeclarations : (String.join (p.functions.map (declaration p.functions))).toList =
      p.functions.flatMap (fun f => (declaration p.functions f).toList) := by
    rw [String.toList_join, List.flatMap_map]
  rw [← hdeclarations, ← toList_exportsObject]
  exact toList_pieces _ _ _ _ _

/-! ### Expressions -/

section Expression

variable {functions functions' : List Func}

/-- A number is written in digits, with a sign in front or none. -/
theorem notMem_toString_toInt (value : Int32) {sign : Char} (hnotDigit : sign.isDigit = false)
    (hnotMinus : sign ≠ '-') : sign ∉ (toString value.toInt).toList := by
  have hdigits : ∀ n : Nat, sign ∉ n.repr.toList := fun n => notMem_toList_repr n hnotDigit
  rw [Int.toString_eq_repr, Int.repr_eq_if]
  split
  · exact hdigits _
  · rw [String.toList_append, List.mem_append, not_or]
    exact ⟨fun hinside => hnotMinus (List.mem_singleton.mp hinside), hdigits _⟩

theorem expression_call {target : Nat} (hinside : target < functions.length) :
    expression functions (.call target) = functions[target].name ++ "() | 0" := by
  rw [expression, List.getElem?_eq_getElem hinside]

/-- No expression has a semicolon in it. -/
theorem closed_of_mem (h : Scriptable functions) {f : Func} (hmember : f ∈ functions) :
    Closed functions f := by
  refine ⟨h.notMem_name hmember (by decide), ?_⟩
  cases hbody : f.body with
  | const value => exact notMem_toString_toInt value (by decide) (by decide)
  | call target =>
      have hinside := h.calls f hmember target hbody
      have hname := h.notMem_name (List.getElem_mem hinside) (by decide : inName ';' = false)
      rw [expression_call hinside, String.toList_append, List.mem_append, not_or]
      exact ⟨hname, by decide⟩

/-- A call is told from a number by its parenthesis. -/
theorem expression_const_ne_call (value : Int32) {target : Nat} (hinside : target < functions'.length) :
    expression functions (.const value) ≠ expression functions' (.call target) := by
  intro hsame
  have habsent : '(' ∉ (expression functions (.const value)).toList :=
    notMem_toString_toInt value (by decide) (by decide)
  rw [hsame, expression_call hinside, String.toList_append] at habsent
  exact habsent (List.mem_append_right _ (by decide))

/-- **An expression can be read back**, if the names that it may use are known. -/
theorem expression_inj (h : Scriptable functions) (h' : Scriptable functions')
    (hnames : functions.map Func.name = functions'.map Func.name) {f f' : Func}
    (hmember : f ∈ functions) (hmember' : f' ∈ functions')
    (hsame : expression functions f.body = expression functions' f'.body) : f.body = f'.body := by
  cases hbody : f.body with
  | const value =>
      cases hbody' : f'.body with
      | const value' =>
          rw [hbody, hbody'] at hsame
          rw [Int32.toInt_inj.mp (Int.repr_injective hsame)]
      | call target' =>
          rw [hbody, hbody'] at hsame
          exact absurd hsame (expression_const_ne_call value (h'.calls f' hmember' target' hbody'))
  | call target =>
      have hinside := h.calls f hmember target hbody
      cases hbody' : f'.body with
      | const value' =>
          rw [hbody, hbody'] at hsame
          exact absurd hsame.symm (expression_const_ne_call value' hinside)
      | call target' =>
          have hinside' := h'.calls f' hmember' target' hbody'
          rw [hbody, hbody', expression_call hinside, expression_call hinside'] at hsame
          -- The names are the same, and no name stands at two places.
          have hcalled : (functions.map Func.name)[target]? = (functions.map Func.name)[target']? := by
            conv => rhs; rw [hnames]
            rw [List.getElem?_map, List.getElem?_map, List.getElem?_eq_getElem hinside,
              List.getElem?_eq_getElem hinside', Option.map_some, Option.map_some]
            exact congrArg some ((String.append_left_inj _).mp hsame)
          have hplace : target < (functions.map Func.name).length := by rwa [List.length_map]
          rw [(List.getElem?_inj hplace h.names).mp hcalled]

/-- A function is exported exactly if its name is among those that are. -/
theorem exported_iff_mem (h : WellFormed functions) {f : Func} (hmember : f ∈ functions) :
    f.exported = true ↔ f.name ∈ exportedNames functions := by
  constructor
  · intro hexported
    exact List.mem_map_of_mem (List.mem_filter.mpr ⟨hmember, hexported⟩)
  · intro hnamed
    obtain ⟨g, hchosen, hname⟩ := List.mem_map.mp hnamed
    obtain ⟨hmember', hexported⟩ := List.mem_filter.mp hchosen
    obtain rfl := List.inj_on_of_nodup_map h.names hmember' hmember hname
    exact hexported

theorem notMem_of_mem_exportedNames (h : Scriptable functions) :
    ∀ name ∈ exportedNames functions, ':' ∉ name.toList := by
  intro name hnamed
  obtain ⟨f, hchosen, rfl⟩ := List.mem_map.mp hnamed
  exact h.notMem_name (List.mem_filter.mp hchosen).1 (by decide)

/-- Functions that are declared alike, of which those of the same names are exported, are the same. -/
theorem functions_eq_of_declared_eq (h : Scriptable functions) (h' : Scriptable functions')
    (halike : functions.map (declared functions) = functions'.map (declared functions'))
    (hexports : exportedNames functions = exportedNames functions') : functions = functions' := by
  have hnames : functions.map Func.name = functions'.map Func.name := by
    have hfirsts := congrArg (List.map Prod.fst) halike
    rwa [List.map_map, List.map_map] at hfirsts
  have hlengths : functions.length = functions'.length := by
    have := congrArg List.length hnames
    rwa [List.length_map, List.length_map] at this
  refine List.ext_getElem hlengths fun i hi hi' => ?_
  have hmember := List.getElem_mem hi
  have hmember' := List.getElem_mem hi'
  have hpair : declared functions functions[i] = declared functions' functions'[i] := by
    have hhere := congrArg (fun l => l[i]?) halike
    simpa only [List.getElem?_map, List.getElem?_eq_getElem hi, List.getElem?_eq_getElem hi',
      Option.map_some, Option.some.injEq] using hhere
  obtain ⟨hname, hvalue⟩ := Prod.mk.inj hpair
  have hbody := expression_inj h h' hnames hmember hmember' hvalue
  have hflag : functions[i].exported = functions'[i].exported := by
    rw [Bool.eq_iff_iff, exported_iff_mem h.toWellFormed hmember,
      exported_iff_mem h'.toWellFormed hmember', hname, hexports]
  generalize functions[i] = f, functions'[i] = g at hname hbody hflag
  cases f
  cases g
  congr

end Expression

end AsmJs

/-! ### Lowered files -/

/-- The name of a function that was read is an identifier. -/
theorem exists_identifier_of_mem_functions {path text : String} {d : Declaration}
    (hmember : d ∈ (ParsedFile.parse path text).functions) :
    ∃ name : Identifier, d.name = String.ofList name.text := by
  obtain ⟨l, hline, hread⟩ := List.mem_filterMap.mp hmember
  have hfound : (l.function? (ParsedFile.fileName path)).map (fun d => (d.name, d.exported, d.body)) =
      some (d.name, d.exported, d.body) := by
    rw [hread]
    rfl
  obtain ⟨f, -, hdeclares⟩ :=
    (NumberedLine.map_function?_eq_some_iff (NumberedLine.reading_of_mem hline) _ _).mp hfound
  exact ⟨f.header.name, (congrArg Prod.fst hdeclares).symm⟩

/-- **A script can be made of every program of source texts.** -/
theorem scriptable_ofFiles (sources : List (String × String)) (options : CompileOptions) :
    Scriptable (Lowered.ofFiles (sources.map fun s => ParsedFile.parse s.1 s.2)
      options).program.functions := by
  refine ⟨wellFormed_ofFiles _ options, ?_⟩
  intro f hmember
  obtain ⟨d, hfirst, hname, -⟩ := exists_first_of_mem_ofFiles hmember
  have hdeclared := (Linked.firsts_sublist [] (Linked.all _)).subset hfirst
  obtain ⟨file, hread, hdeclared⟩ := (Linked.exists_mem_all_iff).mp ⟨d, hdeclared, rfl⟩
  obtain ⟨s, -, rfl⟩ := List.mem_map.mp hread
  rw [hname]
  exact exists_identifier_of_mem_functions hdeclared

/-- **Programs have the same asm.js form exactly if they have the same functions**: the same names in
the same order, the same exports, and the same constants and places of calls. This is so for programs
whose functions have distinct identifiers for names and call functions that are there, and all programs
of source texts are such programs. -/
theorem asmJs_determines_functions :
    (∀ p q : Program, Scriptable p.functions → Scriptable q.functions →
      (AsmJs.render p = AsmJs.render q ↔ p.functions = q.functions)) ∧
    ∀ (sources : List (String × String)) (options : CompileOptions),
      Scriptable (Lowered.ofFiles (sources.map fun s => ParsedFile.parse s.1 s.2)
        options).program.functions := by
  refine ⟨?_, scriptable_ofFiles⟩
  intro p q hp hq
  refine ⟨?_, AsmJs.render_congr⟩
  intro hsame
  have htexts := congrArg String.toList hsame
  rw [AsmJs.toList_render, AsmJs.toList_render] at htexts
  obtain ⟨halike, hends⟩ := AsmJs.declarations_inj p.functions q.functions
    (fun f => AsmJs.closed_of_mem hp) (fun f => AsmJs.closed_of_mem hq)
    (List.append_cancel_left htexts)
  have hobjects := List.append_cancel_right (List.append_cancel_left hends)
  refine AsmJs.functions_eq_of_declared_eq hp hq halike ?_
  exact AsmJs.objectText_inj (AsmJs.notMem_of_mem_exportedNames hp)
    (AsmJs.notMem_of_mem_exportedNames hq) hobjects

/-- A function that calls itself or another. -/
def callingProgram (callee : String) : Program :=
  (Lowered.ofFiles ([("main", "export function $(): i32 \x7b return " ++ callee ++ "(); \x7d\n" ++
    "function _(): i32 \x7b return -7; \x7d")].map fun s => ParsedFile.parse s.1 s.2)
      ⟨false, true⟩).program

/-- Which of the two it calls shows in the script, by their names only. -/
theorem callingProgram_scripts_differ :
    (callingProgram "$").functions = [⟨"$", true, .call 0⟩, ⟨"_", false, .const (-7)⟩] ∧
      (callingProgram "_").functions = [⟨"$", true, .call 1⟩, ⟨"_", false, .const (-7)⟩] ∧
      AsmJs.render (callingProgram "$") ≠ AsmJs.render (callingProgram "_") := by
  have hitself : (callingProgram "$").functions =
      [⟨"$", true, .call 0⟩, ⟨"_", false, .const (-7)⟩] := by decide +kernel
  have hother : (callingProgram "_").functions =
      [⟨"$", true, .call 1⟩, ⟨"_", false, .const (-7)⟩] := by decide +kernel
  obtain ⟨hdetermined, hscriptable⟩ := asmJs_determines_functions
  refine ⟨hitself, hother, ?_⟩
  intro hsame
  have hfunctions : (callingProgram "$").functions = (callingProgram "_").functions :=
    (hdetermined _ _ (hscriptable _ _) (hscriptable _ _)).mp hsame
  rw [hitself, hother] at hfunctions
  exact absurd hfunctions (by decide)

end Wasmline
