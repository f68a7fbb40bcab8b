import Wasmline.Engine.Standard
import Wasmline.Proofs.Run.Work
import Wasmline.Proofs.Source.Session
import Wasmline.Run.Discovery

/-!
# What finding source files reads and supplies

`locate` says, without any trace, which file a path leads to; `resolve` is that and its trace. A
discovery that comes to a result is a list of answered requests (`Answers`): each import that the
engine asked for, with the file it was given, one after the other until the engine asks for no more.
`discover_eq_ok` reads the whole trace off that list.

With the standard engine no path is asked for twice, and a file that comes again under one path is
ignored. Two paths may still lead to one file, such as `lib` and `lib/index`. The session then keeps
one copy of the file, but it is read and supplied once for each of the paths:
`discover_feeds_once_iff` says that this is the only way in which that happens.
-/

namespace Wasmline

/-! ### Where a path leads -/

/-- The text that was read, if any was. -/
def Reading.text? : Reading → Option String
  | text t => some t
  | _ => none

/-- The paths that the file for a path may be known by, in the order in which they are tried. -/
def candidates (extension path : String) : List String :=
  [Path.normalize path extension, Path.normalize path extension ++ "/index"]

/-- The file that a path leads to: the path it is known by, and its text. -/
def locate (loader : Loader) (extension path : String) : Option (String × String) :=
  (candidates extension path).findSome? fun known =>
    (loader (known ++ extension)).text?.map fun text => (known, text)

/-- The path by which the file is known that a path leads to. -/
def canonical (loader : Loader) (extension path : String) : Option String :=
  (locate loader extension path).map Prod.fst

/-- The event as the name of a file that was there when it was asked for. -/
def Event.read? (loader : Loader) : Event → Option String
  | load file => if (loader file).text?.isSome then some file else none
  | _ => none

@[simp] theorem Event.read?_note (loader : Loader) (n : Note) : read? loader (.note n) = none := rfl

@[simp] theorem Event.read?_call (loader : Loader) (c : Call) : read? loader (.call c) = none := rfl

@[simp] theorem reads_notes (loader : Loader) (notes : List Note) :
    notes.filterMap (Event.read? loader ∘ Event.note) = [] :=
  Work.filterMap_comp_note (Event.read?_note loader) notes

@[simp] theorem reads_note_bind {α : Type} (loader : Loader) (level : Level) (scope : Scope)
    (text : String) (next : Unit → Work α) :
    (Work.note level scope text >>= next).trace (Event.read? loader) =
      (next ()).trace (Event.read? loader) :=
  Work.trace_note_bind (Event.read?_note loader) level scope text next

/-- Trying a file gives its text, if it has one. -/
theorem result_tryFile (loader : Loader) (file : String) :
    (tryFile loader file).result = .ok (loader file).text? := by
  unfold tryFile
  cases loader file <;> rfl

theorem calls_tryFile (loader : Loader) (file : String) :
    (tryFile loader file).trace Event.call? = [] := by
  unfold tryFile
  cases loader file <;> rfl

theorem reads_tryFile (loader : Loader) (file : String) :
    (tryFile loader file).trace (Event.read? loader) =
      if (loader file).text?.isSome then [file] else [] := by
  unfold tryFile Work.trace
  cases h : loader file <;>
    simp [List.filterMap_cons, Event.read?, h, Reading.text?]

section Resolve

variable (loader : Loader) (extension path : String) (origin : Origin)

/-- The file under the path itself comes before the index of a directory of that name. -/
theorem locate_eq :
    locate loader extension path =
      match (loader (Path.normalize path extension ++ extension)).text? with
      | some text => some (Path.normalize path extension, text)
      | none =>
        (loader (Path.normalize path extension ++ "/index" ++ extension)).text?.map fun text =>
          (Path.normalize path extension ++ "/index", text) := by
  unfold locate candidates
  cases hdirect : (loader (Path.normalize path extension ++ extension)).text? with
  | some text => simp [hdirect]
  | none =>
      simp only [List.findSome?_cons, hdirect, Option.map_none, List.findSome?_nil]
      cases (loader (Path.normalize path extension ++ "/index" ++ extension)).text? <;> rfl

variable {loader extension path} in
/-- A file that a path leads to is read under its canonical path. -/
theorem text?_of_locate {known text : String}
    (hfound : locate loader extension path = some (known, text)) :
    (loader (known ++ extension)).text? = some text := by
  obtain ⟨tried, -, hread⟩ := List.exists_of_findSome?_eq_some hfound
  obtain ⟨text', hheld, hsame⟩ := Option.map_eq_some_iff.mp hread
  obtain ⟨rfl, rfl⟩ := Prod.mk.inj hsame
  exact hheld

/-- A path is resolved to the file it leads to, and otherwise the name tried first is missing. -/
theorem result_resolve :
    (resolve loader extension path origin).result =
      match locate loader extension path with
      | some (known, text) => .ok ⟨known, text, origin⟩
      | none => .error (.failure
          (.fileNotFound (Path.normalize path extension ++ extension) origin)) := by
  unfold resolve
  rw [Work.bind_of_ok (result_tryFile _ _), locate_eq]
  rcases (loader (Path.normalize path extension ++ extension)).text? with _ | text
  · show (tryFile _ _ >>= _).result = _
    rw [Work.bind_of_ok (result_tryFile _ _)]
    rcases (loader (Path.normalize path extension ++ "/index" ++ extension)).text? with _ | text
    · rfl
    · rfl
  · rfl

/-- Finding a file does not call the engine. -/
theorem calls_resolve : (resolve loader extension path origin).trace Event.call? = [] := by
  unfold resolve
  rw [Work.trace_bind_of_ok _ (result_tryFile _ _), calls_tryFile]
  rcases (loader (Path.normalize path extension ++ extension)).text? with _ | text
  · rw [List.nil_append, Work.trace_bind_of_ok _ (result_tryFile _ _), calls_tryFile]
    rcases (loader (Path.normalize path extension ++ "/index" ++ extension)).text? with _ | text
    · rfl
    · rfl
  · rfl

/-- Of the names that are tried, only that of the file which is found is there. -/
theorem reads_resolve :
    (resolve loader extension path origin).trace (Event.read? loader) =
      ((canonical loader extension path).map (· ++ extension)).toList := by
  unfold resolve canonical
  rw [Work.trace_bind_of_ok _ (result_tryFile _ _), reads_tryFile, locate_eq]
  rcases (loader (Path.normalize path extension ++ extension)).text? with _ | text
  · rw [Work.trace_bind_of_ok _ (result_tryFile _ _), reads_tryFile]
    rcases (loader (Path.normalize path extension ++ "/index" ++ extension)).text? with _ | text
    · rfl
    · rfl
  · rfl

end Resolve

/-! ### Answered requests -/

section Answers

variable {engine : Engine} {loader : Loader} {extension : String}

/-- From one session to another by answering requests: each path that the engine asked for, with the
file it was given, until it asks for no more. -/
inductive Answers (engine : Engine) (loader : Loader) (extension : String) :
    engine.Session → List (String × SourceFile) → engine.Session → Prop
  | done {s t : engine.Session} (next : engine.nextImport s = (none, t)) :
      Answers engine loader extension s [] t
  | more {s s' t : engine.Session} {path known text : String}
      {answers : List (String × SourceFile)}
      (next : engine.nextImport s = (some path, s'))
      (found : locate loader extension path = some (known, text))
      (rest : Answers engine loader extension (engine.supply s' ⟨known, text, .imported⟩).1
        answers t) :
      Answers engine loader extension s ((path, ⟨known, text, .imported⟩) :: answers) t

/-- The calls that answer one request. -/
def answerCalls (answer : String × SourceFile) : List Call :=
  [.nextImport (some answer.1), .supply answer.2]

/-- The path that a call shows the engine to have asked for. -/
def Call.asked? : Call → Option String
  | nextImport path => path
  | _ => none

theorem asked_answerCalls (answers : List (String × SourceFile)) :
    (answers.flatMap answerCalls).filterMap Call.asked? = answers.map Prod.fst := by
  induction answers with
  | nil => rfl
  | cons answer answers ih =>
      rw [List.flatMap_cons, List.filterMap_append, ih]
      rfl

/-- Every answer is the file that the request leads to. -/
theorem Answers.locate_eq {s t : engine.Session} {answers : List (String × SourceFile)}
    (h : Answers engine loader extension s answers t) :
    ∀ a ∈ answers, locate loader extension a.1 = some (a.2.path, a.2.text) := by
  induction h with
  | done => simp
  | more hnext hfound hrest ih => exact List.forall_mem_cons.mpr ⟨hfound, ih⟩

/-- Requests that were all answered, read off the trace. -/
theorem gather_eq_ok : (limit : Nat) → {g g' : Gathered engine} →
    (gather engine loader extension limit g).result = .ok g' →
      ∃ answers, Answers engine loader extension g.session answers g'.session ∧
        g'.files = g.files ++ answers.map (fun a => a.2.path) ∧
        (gather engine loader extension limit g).trace Event.call? =
          answers.flatMap answerCalls ++ [.nextImport none] ∧
        (gather engine loader extension limit g).trace (Event.read? loader) =
          answers.map (fun a => a.2.path ++ extension)
  | 0, _, _, h => nomatch h
  | limit + 1, ⟨s, files⟩, g', h => by
      unfold gather at h ⊢
      rcases hnext : engine.nextImport s with ⟨_ | path, s'⟩
      · simp only [hnext, Work.result_emit_bind, Work.result_pure, Except.ok.injEq] at h ⊢
        subst h
        exact ⟨[], .done hnext, (List.append_nil files).symm, rfl, rfl⟩
      · simp only [hnext, Work.result_emit_bind] at h ⊢
        obtain ⟨file, hresolved, h⟩ := Work.result_bind_eq_ok_iff.mp h
        rw [Work.result_note_bind, Work.result_emit_bind] at h
        rw [Work.trace_emit_bind, Work.trace_emit_bind, Work.trace_bind_of_ok _ hresolved,
          Work.trace_bind_of_ok _ hresolved, calls_resolve, reads_resolve]
        rw [result_resolve] at hresolved
        rcases hfound : locate loader extension path with _ | ⟨known, text⟩
        · simp [hfound] at hresolved
        · obtain rfl : ⟨known, text, .imported⟩ = file := by simpa [hfound] using hresolved
          obtain ⟨answers, hsteps, hfiles, hcalls, hreads⟩ := gather_eq_ok limit h
          refine ⟨_, .more hnext hfound hsteps, ?_, ?_, ?_⟩
          · simp [hfiles]
          · simp [hcalls, answerCalls]
          · simp [hreads, List.filterMap_cons, canonical, hfound]

/-- **A discovery that comes to a result** opens a session on the entry file, answers requests until
there are no more, and has read exactly the files that it supplied. -/
theorem discover_eq_ok {entry : String} {limit : Nat} {gathered : Gathered engine}
    (h : (discover engine loader extension entry limit).result = .ok gathered) :
    ∃ known text answers, locate loader extension entry = some (known, text) ∧
      Answers engine loader extension (engine.start ⟨known, text, .entry⟩).1 answers
        gathered.session ∧
      gathered.files = known :: answers.map (fun a => a.2.path) ∧
      (discover engine loader extension entry limit).trace Event.call? =
        .start ⟨known, text, .entry⟩ :: answers.flatMap answerCalls ++ [.nextImport none] ∧
      (discover engine loader extension entry limit).trace (Event.read? loader) =
        gathered.files.map (· ++ extension) := by
  unfold discover at h ⊢
  obtain ⟨file, hresolved, h⟩ := Work.result_bind_eq_ok_iff.mp h
  rw [Work.result_note_bind, Work.result_emit_bind] at h
  obtain ⟨g, hgathers, h⟩ := Work.result_bind_eq_ok_iff.mp h
  rw [Work.result_note_bind, Work.result_pure, Except.ok.injEq] at h
  subst h
  obtain ⟨answers, hsteps, hfiles, hcalls, hreads⟩ := gather_eq_ok limit hgathers
  rw [Work.trace_bind_of_ok _ hresolved, Work.trace_bind_of_ok _ hresolved, calls_resolve,
    reads_resolve]
  rw [result_resolve] at hresolved
  rcases hfound : locate loader extension entry with _ | ⟨known, text⟩
  · simp [hfound] at hresolved
  · obtain rfl : ⟨known, text, .entry⟩ = file := by simpa [hfound] using hresolved
    refine ⟨known, text, answers, rfl, hsteps, hfiles, ?_, ?_⟩
    · rw [Work.calls_note_bind, Work.trace_emit_bind, Work.trace_bind_of_ok _ hgathers,
        Work.calls_note_bind, Work.trace_pure, hcalls]
      simp
    · rw [reads_note_bind, Work.trace_emit_bind, Work.trace_bind_of_ok _ hgathers,
        reads_note_bind, Work.trace_pure, hreads, hfiles]
      simp [List.filterMap_cons, canonical, hfound]

end Answers

/-! ### Feeding the standard engine -/

section Standard

variable {loader : Loader} {extension : String}

/-- Answering requests keeps what is handed out distinct. -/
theorem Answers.issued {s t : Engine.standard.Session} {answers : List (String × SourceFile)}
    (h : Answers Engine.standard loader extension s answers t) :
    ∀ {handed : List String}, Session.Issued s handed →
      Session.Issued t (handed ++ answers.map Prod.fst) := by
  induction h with
  | done hnext =>
      intro handed issued
      obtain ⟨-, rfl⟩ := Session.nextImport_eq_none_iff.mp hnext
      simpa using issued
  | more hnext hfound hrest ih =>
      intro handed issued
      have hgiven := ih ((issued.nextImport hnext).supply _)
      rwa [List.append_assoc] at hgiven

/-- Answering requests keeps the paths of the session those that it was supplied with, each at its
first place. -/
theorem Answers.paths_eq {s t : Engine.standard.Session} {answers : List (String × SourceFile)}
    (h : Answers Engine.standard loader extension s answers t) :
    ∀ {supplied : List String}, Session.paths s = supplied.eraseDups →
      Session.paths t = (supplied ++ answers.map (fun a => a.2.path)).eraseDups := by
  induction h with
  | done hnext =>
      intro supplied hsame
      obtain ⟨-, rfl⟩ := Session.nextImport_eq_none_iff.mp hnext
      simpa using hsame
  | more hnext hfound hrest ih =>
      intro supplied hsame
      have hkept := (Session.paths_nextImport hnext).trans hsame
      have hgiven := ih (Session.paths_supply_eraseDups hkept _)
      rwa [List.append_assoc] at hgiven

/-- What holds of a session whatever is pending, and is kept by supplying files that are found, is kept
by answering requests. -/
theorem Answers.invariant {P : Session → Prop}
    (hnext : ∀ s rest, P s → P { s with pending := rest })
    (hsupply : ∀ s path known text, locate loader extension path = some (known, text) → P s →
      P (s.supply ⟨known, text, .imported⟩))
    {s t : Engine.standard.Session} {answers : List (String × SourceFile)}
    (h : Answers Engine.standard loader extension s answers t) (hstart : P s) : P t := by
  induction h with
  | done hlast =>
      obtain ⟨-, rfl⟩ := Session.nextImport_eq_none_iff.mp hlast
      exact hstart
  | more hfirst hfound _ ih =>
      obtain ⟨rest, -, rfl⟩ := Session.nextImport_eq_some_iff.mp hfirst
      exact ih (hsupply _ _ _ _ hfound (hnext _ rest hstart))

/-- What the requests of a discovery lead to are the files that it supplied. -/
theorem canonical_requests {entry known text : String} {answers : List (String × SourceFile)}
    {s t : Engine.standard.Session}
    (hfound : locate loader extension entry = some (known, text))
    (hsteps : Answers Engine.standard loader extension s answers t) :
    (entry :: answers.map Prod.fst).map (canonical loader extension) =
      (known :: answers.map (fun a => a.2.path)).map some := by
  have hanswered : ∀ a ∈ answers, canonical loader extension a.1 = some a.2.path := by
    intro a ha
    rw [canonical, hsteps.locate_eq a ha]
    rfl
  rw [List.map_cons, List.map_cons, List.map_map, List.map_map, canonical, hfound]
  exact congrArg _ (List.map_congr_left hanswered)

/-- **Each file is read and supplied once, unless two requests lead to it.** With the standard engine
no path is asked for twice, and the session holds the supplied files with repeats left out. There are
repeats, and files read twice, exactly if two of the requested paths lead to the same file. -/
theorem discover_feeds_once_iff (loader : Loader) (extension entry : String) (limit : Nat)
    {gathered : Gathered Engine.standard}
    (h : (discover Engine.standard loader extension entry limit).result = .ok gathered) :
    let work := discover Engine.standard loader extension entry limit
    let asked := (work.trace Event.call?).filterMap Call.asked?
    let apart := (entry :: asked).Pairwise fun p q =>
      canonical loader extension p ≠ canonical loader extension q
    asked.Nodup ∧
      (Session.paths gathered.session).Nodup ∧
      Session.paths gathered.session = gathered.files.eraseDups ∧
      (gathered.files.Nodup ↔ apart) ∧
      (gathered.files = Session.paths gathered.session ↔ apart) ∧
      ((work.trace (Event.read? loader)).Nodup ↔ apart) := by
  intro work asked apart
  obtain ⟨known, text, answers, hfound, hsteps, hfiles, hcalls, hreads⟩ := discover_eq_ok h
  have hasked : asked = answers.map Prod.fst := by
    show List.filterMap _ _ = _
    rw [hcalls, List.cons_append, List.filterMap_cons_none rfl, List.filterMap_append,
      asked_answerCalls]
    exact List.append_nil _
  have hbegun : Session.paths (Session.start ⟨known, text, .entry⟩) = [known].eraseDups :=
    Session.paths_start _
  have hpaths : Session.paths gathered.session = gathered.files.eraseDups := by
    rw [hfiles]
    exact hsteps.paths_eq hbegun
  have hfiles_iff : gathered.files.Nodup ↔ apart := by
    show _ ↔ List.Pairwise _ (entry :: asked)
    rw [← List.nodup_map_iff (fun _ _ => Option.some.inj), hasked, hfiles,
      ← canonical_requests hfound hsteps, List.Nodup, List.pairwise_map]
  have hreads_iff : (work.trace (Event.read? loader)).Nodup ↔ gathered.files.Nodup := by
    rw [hreads, List.nodup_map_iff]
    exact fun p q hsame => (String.append_left_inj extension).mp hsame
  refine ⟨?_, ?_, hpaths, hfiles_iff, ?_, hreads_iff.trans hfiles_iff⟩
  · rw [hasked]
    have hissued := hsteps.issued (Session.Issued.empty.supply ⟨known, text, .entry⟩)
    exact (List.nodup_append'.mp hissued.nodup).1
  · rw [hpaths]
    exact nodup_eraseDups _
  · rw [hpaths, eq_eraseDups_iff]
    exact hfiles_iff

/-- A directory that is imported by its name and by the name of its index. -/
def aliasedImports : Loader :=
  .ofFiles [("main.ts",
      "import \"./lib\";\nimport \"./lib/index\";\nexport function main(): i32 { return one(); }\n"),
    ("lib/index.ts", "export function one(): i32 { return 1; }\n")]

/-- Both imports are met before either is resolved, so the one file is read and supplied twice, and
the files that a run lists are not those of the session. -/
theorem aliasedImports_fed_twice :
    ∃ gathered, (discover Engine.standard aliasedImports ".ts" "main" 3).result = .ok gathered ∧
      ¬ gathered.files.Nodup ∧ gathered.files ≠ Session.paths gathered.session ∧
      ¬ ((discover Engine.standard aliasedImports ".ts" "main" 3).trace
        (Event.read? aliasedImports)).Nodup := by
  have hfiles : (discover Engine.standard aliasedImports ".ts" "main" 3).result.toOption.map
      (fun g => (g.files, Session.paths g.session)) =
        some (["main", "lib/index", "lib/index"], ["main", "lib/index"]) := by decide +kernel
  have hreads : (discover Engine.standard aliasedImports ".ts" "main" 3).trace
      (Event.read? aliasedImports) = ["main.ts", "lib/index.ts", "lib/index.ts"] := by
    decide +kernel
  obtain ⟨gathered, hresult, hboth⟩ := Option.map_eq_some_iff.mp hfiles
  obtain ⟨hfiles, hpaths⟩ := Prod.mk.inj hboth
  refine ⟨gathered, Work.result_of_toOption hresult, ?_, ?_, ?_⟩
  · rw [hfiles]
    decide
  · rw [hfiles, hpaths]
    decide
  · rw [hreads]
    decide

/-- The same directory, imported by the name of its index only after it was found by its own. -/
def aliasedLater : Loader :=
  .ofFiles [("main.ts", "import \"./lib\";\nimport \"./a\";\n"),
    ("a.ts", "import \"./lib/index\";\nimport \"./main\";\n"),
    ("lib/index.ts", "import \"../a\";\n")]

/-- No two requests lead to one file then, although the three files import each other in circles, so
each is fed once. -/
theorem aliasedLater_fed_once :
    ∃ gathered, (discover Engine.standard aliasedLater ".ts" "main" 3).result = .ok gathered ∧
      gathered.files.Nodup ∧ gathered.files = Session.paths gathered.session ∧
      ((discover Engine.standard aliasedLater ".ts" "main" 3).trace
        (Event.read? aliasedLater)).Nodup := by
  have hfound : (discover Engine.standard aliasedLater ".ts" "main" 3).result.toOption.isSome := by
    decide +kernel
  obtain ⟨gathered, hresult⟩ := Option.isSome_iff_exists.mp hfound
  have hresult := Work.result_of_toOption hresult
  have hapart : ("main" :: ((discover Engine.standard aliasedLater ".ts" "main" 3).trace
      Event.call?).filterMap Call.asked?).Pairwise fun p q =>
        canonical aliasedLater ".ts" p ≠ canonical aliasedLater ".ts" q := by
    decide +kernel
  obtain ⟨-, -, -, hfiles, hpaths, hreads⟩ :=
    discover_feeds_once_iff aliasedLater ".ts" "main" 3 hresult
  exact ⟨gathered, hresult, hfiles.mpr hapart, hpaths.mpr hapart, hreads.mpr hapart⟩

end Standard

end Wasmline
