import Mathlib.Algebra.BigOperators.Group.List.Basic
import Mathlib.Algebra.Order.BigOperators.Group.List
import Mathlib.Algebra.Order.Group.Nat
import Mathlib.Algebra.Order.Ring.Nat
import Mathlib.Data.List.Perm.Subperm
import Wasmline.Proofs.Run.Discovery
import Wasmline.Proofs.Source.Worklist

/-!
# Discovery ends, and finds what the entry leads to

Files that are held in memory have only so many imports in them (`importCount`). With the standard
engine every request is a different import of a file that was found, and every file that was found is
one of those held, so a discovery answers no more requests than that: with any limit above
`importCount` it ends, and which one does not matter (`gather_finishes`, `gather_of_le`).

`Progress` is what holds of a session all along a discovery: its worklist is kept, it was supplied with
files that are held, every path that it handed out was resolved, and each of its files but the first
was reached by an import of one before it. When nothing is pending any more, the files are closed under
imports.

A discovery that fails has met a path neither of whose candidates is held, and looking for them is the
last thing that it did (`gather_eq_error`). `discover_exact` puts the two together.
-/

namespace Wasmline

/-! ### Files held in memory -/

section Held

variable {files : List (String × String)} {extension path known text : String}

theorem text?_ofFiles (files : List (String × String)) (name : String) :
    (Loader.ofFiles files name).text? = files.lookup name := by
  unfold Loader.ofFiles
  cases files.lookup name <;> rfl

/-- A path leads nowhere if neither of its candidates is held. -/
theorem locate_ofFiles_eq_none_iff :
    locate (.ofFiles files) extension path = none ↔
      ∀ known ∈ candidates extension path, files.lookup (known ++ extension) = none := by
  unfold locate
  simp only [List.findSome?_eq_none_iff, Option.map_eq_none_iff, text?_ofFiles]

theorem exists_candidate_of_locate_ne_none (hfound : locate (.ofFiles files) extension path ≠ none) :
    ∃ known ∈ candidates extension path, (files.lookup (known ++ extension)).isSome := by
  rw [Ne, locate_ofFiles_eq_none_iff] at hfound
  simpa only [not_forall, exists_prop, ← Option.isSome_iff_ne_none] using hfound

/-- A file that a path leads to is held. -/
theorem mem_of_locate_ofFiles (hfound : locate (.ofFiles files) extension path = some (known, text)) :
    (known ++ extension, text) ∈ files := by
  have hheld := text?_of_locate hfound
  rw [text?_ofFiles] at hheld
  obtain ⟨before, after, rfl, -⟩ := List.lookup_eq_some_iff.mp hheld
  simp

end Held

/-- How many imports there are in files. -/
def importCount (files : List (String × String)) : Nat :=
  (files.map fun file => (ParsedFile.parse file.1 file.2).imports.length).sum

/-- How many imports a text has does not depend on the path that it is known by. -/
theorem length_imports_parse (path path' text : String) :
    (ParsedFile.parse path text).imports.length = (ParsedFile.parse path' text).imports.length := by
  show ((NumberedLine.all text).filterMap _).length = ((NumberedLine.all text).filterMap _).length
  rw [List.length_filterMap_eq_countP, List.length_filterMap_eq_countP]
  refine List.countP_congr fun line _ => ?_
  unfold NumberedLine.import?
  split <;> simp

namespace Session

theorem length_wanted_le : (known : List String) → (files : List ParsedFile) →
    (wanted known files).length ≤ (files.map fun f => f.imports.length).sum
  | _, [] => Nat.le_refl 0
  | known, f :: files => by
      have hmet := List.length_filter_le (fun path => decide (path ∉ known ++ [f.path])) (importPaths f)
      have hlater := length_wanted_le (known ++ [f.path]) files
      have hall : (importPaths f).length = f.imports.length := List.length_map _
      simp only [wanted, List.length_append, List.map_cons, List.sum_cons]
      omega

theorem mem_of_mem_firstSupplied {file : SourceFile} {supplied : List SourceFile}
    (h : file ∈ firstSupplied supplied) : file ∈ supplied := by
  induction supplied using List.reverseRecOn with
  | nil => exact h
  | append_singleton supplied last ih =>
      rw [firstSupplied_concat] at h
      split at h
      · exact List.mem_append_left _ (ih h)
      · rcases List.mem_append.mp h with h | h
        · exact List.mem_append_left _ (ih h)
        · exact List.mem_append_right _ h

/-- A session that was only supplied with files that are held hands out no more paths than there are
imports in them. -/
theorem Worklist.length_handed_le {s : Session} {supplied : List SourceFile} {handed : List String}
    (h : s.Worklist supplied handed) {files : List (String × String)} {extension : String}
    (hheld : ∀ file ∈ supplied, (file.path ++ extension, file.text) ∈ files) :
    handed.length ≤ importCount files := by
  -- the files that were read are different ones of those that are held
  let read := (firstSupplied supplied).map fun file => (file.path ++ extension, file.text)
  have hnames : read.map Prod.fst = s.paths.map (· ++ extension) := by
    simp [read, Session.paths, h.files, ParsedFile.parse]
  have hdistinct : read.Nodup := by
    refine List.Nodup.of_map Prod.fst ?_
    rw [hnames]
    exact h.nodup_paths.map fun p q hsame => (String.append_left_inj extension).mp hsame
  have hsubset : read ⊆ files := by
    intro file hmember
    obtain ⟨source, hfirst, rfl⟩ := List.mem_map.mp hmember
    exact hheld source (mem_of_mem_firstSupplied hfirst)
  have himports : (s.files.map fun f => f.imports.length).sum = importCount read := by
    rw [h.files, importCount, List.map_map, List.map_map]
    refine congrArg List.sum (List.map_congr_left fun file _ => ?_)
    exact length_imports_parse _ _ _
  have hfewer : importCount read ≤ importCount files := by
    obtain ⟨same, hperm, hsub⟩ := hdistinct.subperm hsubset
    calc
      importCount read = importCount same := (hperm.symm.map _).sum_nat
      _ ≤ importCount files := (hsub.map _).sum_le_sum fun _ _ => Nat.zero_le _
  have hissued : (handed ++ s.pending).length ≤ (wanted [] s.files).length := by
    rw [h.issued]
    exact ((nodup_eraseDups _).subperm fun _ => List.mem_eraseDups.mp).length_le
  have hbound := length_wanted_le [] s.files
  rw [List.length_append] at hissued
  omega

end Session

/-! ### All along a discovery -/

/-- Each of these files but the first is what an import of a file before it leads to. -/
def Imported (loader : Loader) (extension : String) (files : List ParsedFile) : Prop :=
  ∀ before f after, files = before ++ f :: after → before ≠ [] →
    ∃ g ∈ before, ∃ path ∈ Session.importPaths g, ∃ text,
      (resolve loader extension path .imported).result = .ok ⟨f.path, text, .imported⟩ ∧
        f = ParsedFile.parse f.path text

theorem Imported.singleton (loader : Loader) (extension : String) (f : ParsedFile) :
    Imported loader extension [f] := by
  intro before g after hsplit hbehind
  rcases before with _ | ⟨first, before⟩
  · exact absurd rfl hbehind
  · simp at hsplit

theorem Imported.concat {loader : Loader} {extension : String} {files : List ParsedFile}
    (h : Imported loader extension files) {g : ParsedFile} {path known text : String}
    (hread : g ∈ files) (hmet : path ∈ Session.importPaths g)
    (hresolved : (resolve loader extension path .imported).result = .ok ⟨known, text, .imported⟩) :
    Imported loader extension (files ++ [ParsedFile.parse known text]) := by
  intro before f after hsplit hbehind
  rcases List.eq_nil_or_concat' after with rfl | ⟨after, last, rfl⟩
  · obtain ⟨rfl, hsame⟩ := List.append_inj' hsplit rfl
    obtain rfl := List.singleton_inj.mp hsame
    exact ⟨g, hread, path, hmet, text, hresolved, rfl⟩
  · rw [← List.cons_append, ← List.append_assoc] at hsplit
    obtain ⟨rfl, -⟩ := List.append_inj' hsplit rfl
    exact h before f after rfl hbehind

theorem result_resolve_of_locate {loader : Loader} {extension path known text : String}
    (hfound : locate loader extension path = some (known, text)) (origin : Origin) :
    (resolve loader extension path origin).result = .ok ⟨known, text, origin⟩ := by
  rw [result_resolve, hfound]

theorem result_resolve_of_locate_none {loader : Loader} {extension path : String}
    (hmissing : locate loader extension path = none) (origin : Origin) :
    (resolve loader extension path origin).result =
      .error (.failure (.fileNotFound (Path.normalize path extension ++ extension) origin)) := by
  rw [result_resolve, hmissing]

/-- A session on an entry in the course of a discovery among files that are held. -/
structure Progress (files : List (String × String)) (extension : String) (entry : SourceFile)
    (s : Session) (supplied : List SourceFile) (handed : List String) : Prop where
  worklist : s.Worklist (entry :: supplied) handed
  /-- The session was supplied with files that are held. -/
  held : ∀ file ∈ entry :: supplied, (file.path ++ extension, file.text) ∈ files
  /-- Every request was answered with what it leads to. -/
  resolved : ∀ path ∈ handed, ∃ file ∈ supplied,
    (resolve (.ofFiles files) extension path .imported).result = .ok file
  imported : Imported (.ofFiles files) extension s.files

namespace Progress

variable {files : List (String × String)} {extension : String} {entry : SourceFile} {s s' : Session}
  {supplied : List SourceFile} {handed : List String} {path known text : String}

theorem start (hfound : locate (.ofFiles files) extension path = some (known, text)) :
    Progress files extension ⟨known, text, .entry⟩ (.start ⟨known, text, .entry⟩) [] [] where
  worklist := Session.Worklist.empty.supply _
  held := List.forall_mem_singleton.mpr (mem_of_locate_ofFiles hfound)
  resolved := List.forall_mem_nil _
  imported := Imported.singleton _ _ _

/-- Answering one request keeps the progress. -/
theorem answer (h : Progress files extension entry s supplied handed)
    (hnext : s.nextImport = (some path, s'))
    (hfound : locate (.ofFiles files) extension path = some (known, text)) :
    Progress files extension entry (s'.supply ⟨known, text, .imported⟩)
      (supplied ++ [⟨known, text, .imported⟩]) (handed ++ [path]) := by
  have hresolved := result_resolve_of_locate hfound .imported
  have hpulled : s'.Worklist (entry :: supplied) (handed ++ [path]) := by
    simpa [hnext] using h.worklist.nextImport
  obtain ⟨rest, hpending, rfl⟩ := Session.nextImport_eq_some_iff.mp hnext
  refine ⟨hpulled.supply _, ?_, ?_, ?_⟩
  · rw [← List.cons_append]
    exact List.forall_mem_append.mpr
      ⟨h.held, List.forall_mem_singleton.mpr (mem_of_locate_ofFiles hfound)⟩
  · refine List.forall_mem_append.mpr ⟨?_, List.forall_mem_singleton.mpr ?_⟩
    · intro earlier hhanded
      obtain ⟨file, hgiven, hresult⟩ := h.resolved earlier hhanded
      exact ⟨file, List.mem_append_left _ hgiven, hresult⟩
    · exact ⟨_, List.mem_append_right _ (List.mem_singleton.mpr rfl), hresolved⟩
  · -- the request was met in one of the files that are there
    have hissued : path ∈ handed ++ s.pending := by simp [hpending]
    obtain ⟨before, g, after, hsplit, hmet, -⟩ := h.worklist.exists_first_import hissued
    have hread : g ∈ s.files := by simp [hsplit]
    by_cases hagain : known ∈ s.paths
    · rw [Session.supply_of_mem hagain]
      exact h.imported
    · rw [Session.supply_of_notMem hagain]
      exact h.imported.concat hread hmet hresolved

/-- No more requests are answered than there are imports. -/
theorem length_handed_le (h : Progress files extension entry s supplied handed) :
    handed.length ≤ importCount files :=
  h.worklist.length_handed_le h.held

end Progress

/-- Requests that were all answered leave nothing pending. -/
theorem Answers.progress {files : List (String × String)} {extension : String} {entry : SourceFile}
    {s t : Engine.standard.Session} {answers : List (String × SourceFile)}
    (h : Answers Engine.standard (.ofFiles files) extension s answers t) :
    ∀ {supplied : List SourceFile} {handed : List String},
      Progress files extension entry s supplied handed →
        ∃ supplied handed, Progress files extension entry t supplied handed ∧
          Session.pending t = [] := by
  induction h with
  | done hnext =>
      intro supplied handed progress
      obtain ⟨hempty, rfl⟩ := Session.nextImport_eq_none_iff.mp hnext
      exact ⟨supplied, handed, progress, hempty⟩
  | more hnext hfound hrest ih =>
      intro supplied handed progress
      exact ih (progress.answer hnext hfound)

/-! ### Discovery ends -/

section Limit

variable {engine : Engine} {loader : Loader} {extension : String}

/-- Answering one request and going on. -/
theorem gather_succ_of_some {s s' : engine.Session} {path : String}
    (hnext : engine.nextImport s = (some path, s')) (limit : Nat) (paths : List String) :
    gather engine loader extension (limit + 1) ⟨s, paths⟩ = (do
      Work.emit [.call (.nextImport (some path))]
      let file ← resolve loader extension path .imported
      Work.note .debug .gathering ("Supplying import " ++ path ++ " as " ++ file.path)
      Work.emit (.call (.supply file) :: (engine.supply s' file).2.map .note)
      gather engine loader extension limit ⟨(engine.supply s' file).1, paths ++ [file.path]⟩) := by
  rw [gather, hnext]

theorem gather_succ_of_none {s s' : engine.Session} (hnext : engine.nextImport s = (none, s'))
    (limit : Nat) (paths : List String) :
    gather engine loader extension (limit + 1) ⟨s, paths⟩ = (do
      Work.emit [.call (.nextImport none)]
      return ⟨s', paths⟩) := by
  rw [gather, hnext]

/-- Requests that were answered within a limit are answered alike within any higher limit. -/
theorem gather_of_le : {limit limit' : Nat} → limit ≤ limit' → {g : Gathered engine} →
    (gather engine loader extension limit g).result ≠ .error .unfinished →
      gather engine loader extension limit' g = gather engine loader extension limit g
  | 0, _, _, _, hended => absurd rfl hended
  | limit + 1, limit' + 1, hle, ⟨s, paths⟩, hended => by
      rcases hnext : engine.nextImport s with ⟨_ | path, s'⟩
      · rw [gather_succ_of_none hnext, gather_succ_of_none hnext]
      · rw [gather_succ_of_some hnext] at hended
        rw [gather_succ_of_some hnext, gather_succ_of_some hnext]
        rw [Work.result_emit_bind] at hended
        refine congrArg (Work.emit _ >>= ·) (funext fun _ => ?_)
        cases hresolved : (resolve loader extension path .imported).result with
        | error halt => rw [Work.bind_of_error hresolved, Work.bind_of_error hresolved]
        | ok file =>
            rw [Work.bind_of_ok hresolved] at hended
            rw [Work.bind_of_ok hresolved, Work.bind_of_ok hresolved,
              gather_of_le (Nat.le_of_succ_le_succ hle) hended]

/-- Discovery once the entry is found. -/
def discoverFrom (engine : Engine) (loader : Loader) (extension : String) (limit : Nat)
    (file : SourceFile) : Work (Gathered engine) := do
  Work.note .debug .gathering ("Entry file: " ++ file.path)
  Work.emit (.call (.start file) :: (engine.start file).2.map .note)
  let gathered ← gather engine loader extension limit ⟨(engine.start file).1, [file.path]⟩
  Work.note .debug .gathering s!"Module graph complete: {gathered.files.length} file(s)"
  return gathered

theorem discover_eq (engine : Engine) (loader : Loader) (extension entry : String) (limit : Nat) :
    discover engine loader extension entry limit =
      resolve loader extension entry .entry >>= discoverFrom engine loader extension limit :=
  rfl

/-- Behind the entry, discovery stops where answering requests stops. -/
theorem halt?_discoverFrom (limit : Nat) (file : SourceFile) :
    (discoverFrom engine loader extension limit file).halt? =
      (gather engine loader extension limit ⟨(engine.start file).1, [file.path]⟩).halt? := by
  unfold discoverFrom
  rw [Work.halt?_note_bind, Work.halt?_emit_bind]
  cases hresult : (gather engine loader extension limit
      ⟨(engine.start file).1, [file.path]⟩).result with
  | ok gathered => rw [Work.halt?_bind_of_ok hresult, Work.halt?_of_ok hresult, Work.halt?_note_bind,
      Work.halt?_of_ok (Work.result_pure _)]
  | error halt =>
      rw [Work.halt?_of_error hresult, Work.bind_of_error hresult]
      rfl

/-- A discovery that ended within a limit is the same with any higher limit. -/
theorem discoverFrom_of_le {limit limit' : Nat} (hle : limit ≤ limit') {file : SourceFile}
    (hended : (gather engine loader extension limit ⟨(engine.start file).1, [file.path]⟩).result ≠
      .error .unfinished) :
    discoverFrom engine loader extension limit' file =
      discoverFrom engine loader extension limit file := by
  unfold discoverFrom
  rw [gather_of_le hle hended]

end Limit

/-! ### Where discovery fails -/

/-- The event, if a file was asked for or the engine was called. -/
def Event.deed? : Event → Option Event
  | load file => some (.load file)
  | call c => some (.call c)
  | _ => none

/-- The path that the engine asked for. -/
def Event.asked? (e : Event) : Option String :=
  e.call?.bind Call.asked?

@[simp] theorem Event.deed?_note (n : Note) : Event.deed? (.note n) = none := rfl

@[simp] theorem deeds_notes (notes : List Note) :
    notes.filterMap (Event.deed? ∘ Event.note) = [] :=
  Work.filterMap_comp_note Event.deed?_note notes

@[simp] theorem deeds_note_bind {α : Type} (level : Level) (scope : Scope) (text : String)
    (next : Unit → Work α) :
    (Work.note level scope text >>= next).trace Event.deed? = (next ()).trace Event.deed? :=
  Work.trace_note_bind Event.deed?_note level scope text next

/-- What was asked for is known from the calls. -/
theorem asked_deeds {α : Type} (work : Work α) :
    (work.trace Event.deed?).filterMap Event.asked? =
      (work.trace Event.call?).filterMap Call.asked? := by
  unfold Work.trace
  rw [List.filterMap_filterMap, List.filterMap_filterMap]
  congr 1
  funext e
  cases e <;> rfl

section Failure

variable {engine : Engine} {loader : Loader} {extension : String}

theorem deeds_tryFile (loader : Loader) (file : String) :
    (tryFile loader file).trace Event.deed? = [.load file] := by
  unfold tryFile
  cases loader file <;> rfl

/-- A path that leads nowhere is looked for under both of its candidates. -/
theorem deeds_resolve_of_none {path : String} (hmissing : locate loader extension path = none)
    (origin : Origin) :
    (resolve loader extension path origin).trace Event.deed? =
      (candidates extension path).map fun known => .load (known ++ extension) := by
  rw [locate_eq] at hmissing
  unfold resolve
  rw [Work.trace_bind_of_ok _ (result_tryFile _ _), deeds_tryFile]
  cases hdirect : (loader (Path.normalize path extension ++ extension)).text? with
  | some text => simp [hdirect] at hmissing
  | none =>
      rw [hdirect, Option.map_eq_none_iff] at hmissing
      rw [Work.trace_bind_of_ok _ (result_tryFile _ _), deeds_tryFile, hmissing]
      rfl

/-- Looking for a file asks the engine for nothing. -/
theorem asked_resolve (path : String) (origin : Origin) :
    ((resolve loader extension path origin).trace Event.deed?).filterMap Event.asked? = [] := by
  rw [asked_deeds, calls_resolve]
  rfl

/-- A discovery that fails, other than by its limit, fails for the first request that leads nowhere,
and does nothing after looking for that. -/
theorem gather_eq_error : (limit : Nat) → {g : Gathered engine} → {halt : Halt} →
    (gather engine loader extension limit g).result = .error halt →
      halt = .unfinished ∨
      ∃ before path, (∀ q ∈ before.filterMap Event.asked?, locate loader extension q ≠ none) ∧
        locate loader extension path = none ∧
        halt = .failure (.fileNotFound (Path.normalize path extension ++ extension) .imported) ∧
        (gather engine loader extension limit g).trace Event.deed? =
          before ++ .call (.nextImport (some path)) ::
            (candidates extension path).map fun known => .load (known ++ extension)
  | 0, _, _, h => .inl (Except.error.inj h).symm
  | limit + 1, ⟨s, paths⟩, halt, h => by
      rcases hnext : engine.nextImport s with ⟨_ | path, s'⟩
      · rw [gather_succ_of_none hnext] at h
        exact nomatch h
      · rw [gather_succ_of_some hnext, Work.result_emit_bind] at h
        rw [gather_succ_of_some hnext, Work.trace_emit_bind]
        cases hfound : locate loader extension path with
        | none =>
            have hmissing := result_resolve_of_locate_none hfound .imported
            rw [Work.bind_of_error hmissing] at h
            refine .inr ⟨[], path, List.forall_mem_nil _, hfound, (Except.error.inj h).symm, ?_⟩
            rw [Work.trace_bind_of_error _ hmissing, deeds_resolve_of_none hfound]
            rfl
        | some file =>
            obtain ⟨known, text⟩ := file
            have hresolved := result_resolve_of_locate hfound .imported
            rw [Work.bind_of_ok hresolved] at h
            rcases gather_eq_error limit h with
              hunfinished | ⟨before, last, hanswered, hmissing, hsame, hdeeds⟩
            · exact .inl hunfinished
            · let first : List Event := .call (.nextImport (some path)) ::
                ((resolve loader extension path .imported).trace Event.deed? ++
                  [.call (.supply ⟨known, text, .imported⟩)])
              have hasked : first.filterMap Event.asked? = [path] := by
                simp [first, List.filterMap_cons, Event.asked?, Call.asked?, asked_resolve]
              refine .inr ⟨first ++ before, last, ?_, hmissing, hsame, ?_⟩
              · rw [List.filterMap_append, hasked]
                refine List.forall_mem_cons.mpr ⟨?_, hanswered⟩
                rw [hfound]
                nofun
              · rw [Work.trace_bind_of_ok _ hresolved, deeds_note_bind, Work.trace_emit_bind, hdeeds]
                simp [first, Event.deed?]

/-- Behind the entry, a discovery that fails, other than by its limit, fails for the first request that
leads nowhere, and does nothing after looking for that. -/
theorem discoverFrom_eq_error {limit : Nat} {file : SourceFile} {halt : Halt}
    (h : (discoverFrom engine loader extension limit file).result = .error halt) :
    halt = .unfinished ∨
      ∃ before path, (∀ q ∈ before.filterMap Event.asked?, locate loader extension q ≠ none) ∧
        locate loader extension path = none ∧
        halt = .failure (.fileNotFound (Path.normalize path extension ++ extension) .imported) ∧
        (discoverFrom engine loader extension limit file).trace Event.deed? =
          before ++ .call (.nextImport (some path)) ::
            (candidates extension path).map fun known => .load (known ++ extension) := by
  have hstopped := Work.halt?_of_error h
  rw [halt?_discoverFrom] at hstopped
  have hstopped := Work.result_of_halt? hstopped
  rcases gather_eq_error limit hstopped with
    hunfinished | ⟨before, path, hanswered, hmissing, hsame, hdeeds⟩
  · exact .inl hunfinished
  · refine .inr ⟨.call (.start file) :: before, path, hanswered, hmissing, hsame, ?_⟩
    unfold discoverFrom
    rw [deeds_note_bind, Work.trace_emit_bind, Work.trace_bind_of_error _ hstopped, hdeeds]
    simp [Event.deed?]

end Failure

/-! ### The whole discovery -/

section Standard

variable {files : List (String × String)} {extension : String}

/-- Discovery ends before it has answered more requests than there are imports. -/
theorem gather_finishes : (limit : Nat) → (paths : List String) → {entry : SourceFile} →
    {s : Session} → {supplied : List SourceFile} → {handed : List String} →
    Progress files extension entry s supplied handed →
    importCount files < limit + handed.length →
      (gather Engine.standard (.ofFiles files) extension limit ⟨s, paths⟩).result ≠
        .error .unfinished
  | 0, _, _, _, _, _, hprogress, henough => by
      have hbound := hprogress.length_handed_le
      omega
  | limit + 1, _, _, s, _, _, hprogress, henough => by
      rcases hnext : s.nextImport with ⟨_ | path, s'⟩
      · rw [gather_succ_of_none (show Engine.standard.nextImport s = _ from hnext)]
        nofun
      · rw [gather_succ_of_some (show Engine.standard.nextImport s = _ from hnext),
          Work.result_emit_bind]
        cases hfound : locate (.ofFiles files) extension path with
        | none =>
            rw [Work.bind_of_error (result_resolve_of_locate_none hfound .imported)]
            nofun
        | some file =>
            obtain ⟨known, text⟩ := file
            rw [Work.bind_of_ok (result_resolve_of_locate hfound .imported)]
            refine gather_finishes limit _ (hprogress.answer hnext hfound) ?_
            simp only [List.length_append, List.length_singleton]
            omega

/-- What discovery found is the entry, files that imports of earlier ones lead to, and everything
that the imports of these lead to. -/
structure Complete (files : List (String × String)) (extension entry : String) (s : Session) :
    Prop where
  entry : ∃ file, (resolve (.ofFiles files) extension entry .entry).result = .ok file ∧
    s.files.head? = some (ParsedFile.parse file.path file.text)
  imported : Imported (.ofFiles files) extension s.files
  closed : ∀ f ∈ s.files, ∀ path ∈ Session.importPaths f, path ∈ s.paths ∨
    ∃ file, (resolve (.ofFiles files) extension path .imported).result = .ok file ∧
      file.path ∈ s.paths

/-- Discovery stopped at a path neither of whose candidates is held. That path is what it failed for,
and looking for the candidates, behind the deeds of `before`, is the last thing that it did. -/
structure MissedAt (files : List (String × String)) (extension path : String) (origin : Origin)
    (before : List Event) (work : Work (Gathered Engine.standard)) : Prop where
  missing : ∀ known ∈ candidates extension path, files.lookup (known ++ extension) = none
  failure : work.result =
    .error (.failure (.fileNotFound (Path.normalize path extension ++ extension) origin))
  last : work.trace Event.deed? =
    before ++ (candidates extension path).map fun known => .load (known ++ extension)

/-- A session with nothing pending has all that its entry leads to. -/
theorem Progress.complete {entry known text : String} {s : Session} {supplied : List SourceFile}
    {handed : List String} (hfound : locate (.ofFiles files) extension entry = some (known, text))
    (h : Progress files extension ⟨known, text, .entry⟩ s supplied handed)
    (hempty : s.pending = []) : Complete files extension entry s := by
  refine ⟨⟨_, result_resolve_of_locate hfound .entry, ?_⟩, h.imported, ?_⟩
  · rw [h.worklist.files, Session.firstSupplied, List.eraseDupsBy_cons]
    rfl
  · intro f hread path hmet
    rcases h.worklist.import_cases hread hmet with hhanded | hpending | hknown
    · obtain ⟨file, hgiven, hresolved⟩ := h.resolved path hhanded
      refine .inr ⟨file, hresolved, ?_⟩
      rw [h.worklist.paths, List.mem_eraseDups]
      exact List.mem_map_of_mem (List.mem_cons_of_mem _ hgiven)
    · rw [hempty] at hpending
      exact absurd hpending List.not_mem_nil
    · exact .inl hknown

/-- **Discovery ends, and is exact.** Among files that are held in memory, whatever cycles and aliases
their imports make,

* there is one outcome that every limit above the number of imports gives;
* if it is a success, every file but the entry is what an import of an earlier file leads to, and
  every import of every file is the path of one of the files or leads to one of them;
* otherwise it is that the entry, or the first pending import neither of whose candidates is held, was
  not found, and nothing is pulled, loaded or supplied behind that miss. -/
theorem discover_exact (files : List (String × String)) (extension entry : String) :
    ∃ work : Work (Gathered Engine.standard),
      (∀ limit, importCount files < limit →
        discover Engine.standard (.ofFiles files) extension entry limit = work) ∧
      (∀ gathered, work.result = .ok gathered →
        Complete files extension entry gathered.session) ∧
      (∀ halt, work.result = .error halt →
        MissedAt files extension entry .entry [] work ∨
        ∃ before path,
          (∀ q ∈ before.filterMap Event.asked?,
            ∃ known ∈ candidates extension q, (files.lookup (known ++ extension)).isSome) ∧
          MissedAt files extension path .imported
            (before ++ [.call (.nextImport (some path))]) work) := by
  cases hfound : locate (.ofFiles files) extension entry with
  | none =>
      have hmissing := result_resolve_of_locate_none hfound .entry
      have hstops : ∀ limit, discover Engine.standard (.ofFiles files) extension entry limit =
          ⟨.error (.failure (.fileNotFound (Path.normalize entry extension ++ extension) .entry)),
            (resolve (.ofFiles files) extension entry .entry).events⟩ := by
        intro limit
        rw [discover_eq, Work.bind_of_error hmissing]
      refine ⟨_, fun limit _ => hstops limit, nofun, fun halt _ => .inl ⟨?_, rfl, ?_⟩⟩
      · exact locate_ofFiles_eq_none_iff.mp hfound
      · exact deeds_resolve_of_none hfound .entry
  | some file =>
      obtain ⟨known, text⟩ := file
      have hresolved := result_resolve_of_locate hfound .entry
      have hended := gather_finishes (importCount files + 1) [known] (Progress.start hfound)
        (Nat.lt_succ_self _)
      refine ⟨discover Engine.standard (.ofFiles files) extension entry (importCount files + 1),
        ?_, ?_, ?_⟩
      · intro limit henough
        rw [discover_eq, discover_eq, Work.bind_of_ok hresolved, Work.bind_of_ok hresolved,
          discoverFrom_of_le henough hended]
      · intro gathered hresult
        obtain ⟨known, text, answers, hfound, hsteps, -⟩ := discover_eq_ok hresult
        obtain ⟨supplied, handed, hprogress, hempty⟩ := hsteps.progress (Progress.start hfound)
        exact hprogress.complete hfound hempty
      · intro halt hresult
        have hstopped : (discoverFrom Engine.standard (.ofFiles files) extension
            (importCount files + 1) ⟨known, text, .entry⟩).result = .error halt := by
          simpa only [discover_eq, Work.bind_of_ok hresolved] using hresult
        rcases discoverFrom_eq_error hstopped with
          rfl | ⟨before, path, hanswered, hmissing, rfl, hdeeds⟩
        · have hunfinished := Work.halt?_of_error hstopped
          rw [halt?_discoverFrom] at hunfinished
          exact absurd (Work.result_of_halt? hunfinished) hended
        · refine .inr ⟨(resolve (.ofFiles files) extension entry .entry).trace Event.deed? ++ before,
            path, ?_, locate_ofFiles_eq_none_iff.mp hmissing, hresult, ?_⟩
          · intro q hasked
            rw [List.filterMap_append, asked_resolve, List.nil_append] at hasked
            exact exists_candidate_of_locate_ne_none (hanswered q hasked)
          · rw [discover_eq, Work.trace_bind_of_ok _ hresolved, hdeeds]
            simp

end Standard

end Wasmline
