import Wasmline.Engine.Standard
import Wasmline.Proofs.Source.Session

/-!
# The worklist of a session

A session may be driven in any way: supplied with files that it asked for or did not, under paths that
it knows or does not, asked for imports and for diagnostics, and compiled, in any order. `History` is
such a session with what it was given and what it handed out.

`wanted` says, from the files alone, which imports a session has to ask for: those that led to none of
the files read by then. The paths handed out, followed by those still pending, are always the wanted
ones, each at its first place. `Worklist` is the invariant that carries this: its last field says that
what a session notes as requested is what it has read, handed out or queued, and nothing else, which is
why the queue never holds a path that is known already.

* `Worklist.supply`, `Worklist.nextImport`: what one operation preserves.
* `History.worklist_drive`: what any sequence of them preserves.
* `drive_worklist`: what follows for the files, the imports handed out and those still pending.
-/

namespace Wasmline

/-! ### First items under a key -/

/-- A list that goes on with an item under a known key is the same once later items are left out. -/
theorem eraseDupsBy_key_concat {α κ : Type} [DecidableEq κ] (key : α → κ) (l : List α) (a : α) :
    (l ++ [a]).eraseDupsBy (fun x y => key x == key y) =
      if key a ∈ l.map key then l.eraseDupsBy (fun x y => key x == key y)
      else l.eraseDupsBy (fun x y => key x == key y) ++ [a] := by
  match l with
  | [] => rfl
  | first :: l =>
      rw [List.cons_append, List.eraseDupsBy_cons, List.eraseDupsBy_cons, List.filter_append]
      by_cases hsame : key a = key first
      · simp [hsame]
      · -- what is left of the items behind the first one knows the key if they did
        have hkept : key a ∈ (l.filter fun x => (key x == key first) = false).map key ↔
            key a ∈ (first :: l).map key := by
          simp only [List.mem_map, List.mem_filter, List.mem_cons, decide_eq_true_eq,
            beq_eq_false_iff_ne]
          constructor
          · rintro ⟨x, ⟨hx, -⟩, hkey⟩
            exact ⟨x, .inr hx, hkey⟩
          · rintro ⟨x, rfl | hx, hkey⟩
            · exact absurd hkey.symm hsame
            · exact ⟨x, ⟨hx, hkey ▸ hsame⟩, hkey⟩
        have hother : [a].filter (fun x => (key x == key first) = false) = [a] := by simp [hsame]
        rw [hother, eraseDupsBy_key_concat key (l.filter _) a]
        simp only [hkept]
        split <;> rfl
termination_by l.length
decreasing_by
  have hshorter := List.length_filter_le (fun x => decide ((key x == key first) = false)) l
  simp only [List.length_cons]
  omega

namespace Session

/-! ### The imports that are wanted -/

/-- The paths of the imports of a file, in order. -/
def importPaths (parsed : ParsedFile) : List String :=
  parsed.imports.map Import.path

/-- The import paths that were met in these files, in order, other than those under which a file was
read by then; files were read under the paths of `known` before. -/
def wanted (known : List String) : List ParsedFile → List String
  | [] => []
  | f :: fs =>
    (importPaths f).filter (fun path => path ∉ known ++ [f.path]) ++ wanted (known ++ [f.path]) fs

theorem wanted_concat (f : ParsedFile) : (known : List String) → (files : List ParsedFile) →
    wanted known (files ++ [f]) = wanted known files ++
      (importPaths f).filter fun path => path ∉ known ++ files.map ParsedFile.path ++ [f.path]
  | known, [] => by simp [wanted]
  | known, g :: files => by
      simp only [List.cons_append, wanted, wanted_concat f (known ++ [g.path]) files,
        List.append_assoc, List.map_cons, List.nil_append]

/-- What was read by then is not wanted. -/
theorem notMem_wanted {path : String} : {known : List String} → {files : List ParsedFile} →
    path ∈ known → path ∉ wanted known files
  | _, [], _ => by simp [wanted]
  | known, f :: files, hread => by
      intro hmember
      rcases List.mem_append.mp hmember with hmet | hlater
      · have hfresh : path ∉ known ++ [f.path] := by simpa using (List.mem_filter.mp hmet).2
        exact hfresh (List.mem_append_left _ hread)
      · exact notMem_wanted (List.mem_append_left _ hread) hlater

/-- A wanted path had not been read when it was first met. -/
theorem exists_first_of_mem_wanted {path : String} : {known : List String} →
    {files : List ParsedFile} → path ∈ wanted known files →
      ∃ before f after, files = before ++ f :: after ∧ path ∈ importPaths f ∧
        (∀ g ∈ before, path ∉ importPaths g) ∧
        path ∉ known ++ (before ++ [f]).map ParsedFile.path
  | _, [], hmember => nomatch hmember
  | known, f :: files, hmember => by
      by_cases hmet : path ∈ importPaths f
      · refine ⟨[], f, files, rfl, hmet, List.forall_mem_nil _, ?_⟩
        intro hread
        rcases List.mem_append.mp hmember with hfirst | hlater
        · have hfresh : path ∉ known ++ [f.path] := by simpa using (List.mem_filter.mp hfirst).2
          exact hfresh hread
        · exact notMem_wanted hread hlater
      · have hlater : path ∈ wanted (known ++ [f.path]) files := by
          rcases List.mem_append.mp hmember with hfirst | hlater
          · exact absurd (List.mem_of_mem_filter hfirst) hmet
          · exact hlater
        obtain ⟨before, g, after, rfl, hg, hunmet, hfresh⟩ := exists_first_of_mem_wanted hlater
        refine ⟨f :: before, g, after, rfl, hg, List.forall_mem_cons.mpr ⟨hmet, hunmet⟩, ?_⟩
        simpa using hfresh

/-- An import leads to something known or to one of the files, or it is wanted. -/
theorem mem_wanted_or {path : String} {f : ParsedFile} (hmet : path ∈ importPaths f) :
    {known : List String} → {files : List ParsedFile} → f ∈ files →
      path ∈ known ∨ path ∈ files.map ParsedFile.path ∨ path ∈ wanted known files
  | known, g :: files, hmember => by
      rcases List.mem_cons.mp hmember with rfl | hmember
      · by_cases hread : path ∈ known ++ [f.path]
        · rcases List.mem_append.mp hread with hread | hown
          · exact .inl hread
          · exact .inr (.inl (List.mem_cons.mpr (.inl (List.mem_singleton.mp hown))))
        · refine .inr (.inr (List.mem_append_left _ (List.mem_filter.mpr ⟨hmet, ?_⟩)))
          simpa using hread
      · rcases mem_wanted_or hmet hmember with hread | hread | hlater
        · rcases List.mem_append.mp hread with hread | hown
          · exact .inl hread
          · exact .inr (.inl (List.mem_cons.mpr (.inl (List.mem_singleton.mp hown))))
        · exact .inr (.inl (List.mem_cons_of_mem _ hread))
        · exact .inr (.inr (List.mem_append_right _ hlater))

/-- New requests are the paths that were not requested, each at its first place. -/
theorem newRequests_eq : (requested paths : List String) →
    newRequests requested paths = (paths.filter fun path => path ∉ requested).eraseDups
  | _, [] => rfl
  | requested, first :: paths => by
      unfold newRequests
      split
      · rename_i hknown
        rw [newRequests_eq requested paths, List.filter_cons_of_neg (by simpa using hknown)]
      · rename_i hunknown
        rw [newRequests_eq (first :: requested) paths, List.filter_cons_of_pos (by simpa using hunknown),
          List.eraseDups_cons, List.filter_filter]
        congr 3
        funext path
        by_cases hsame : path = first <;> simp [hsame]

/-! ### The invariant -/

/-- The files that were the first to be supplied under their paths. -/
def firstSupplied (supplied : List SourceFile) : List SourceFile :=
  supplied.eraseDupsBy fun later first => later.path == first.path

theorem firstSupplied_concat (supplied : List SourceFile) (file : SourceFile) :
    firstSupplied (supplied ++ [file]) =
      if file.path ∈ supplied.map SourceFile.path then firstSupplied supplied
      else firstSupplied supplied ++ [file] :=
  eraseDupsBy_key_concat SourceFile.path supplied file

/-- A session after being supplied with some files and handing out some paths. -/
structure Worklist (s : Session) (supplied : List SourceFile) (handed : List String) : Prop where
  /-- The files are those that came first under their paths. -/
  files : s.files = (firstSupplied supplied).map fun file => ParsedFile.parse file.path file.text
  /-- The session knows the paths that it was supplied with. -/
  paths : s.paths = (supplied.map SourceFile.path).eraseDups
  /-- What was handed out and what is pending is what was wanted. -/
  issued : handed ++ s.pending = (wanted [] s.files).eraseDups
  /-- What is noted as requested was read, handed out or queued. -/
  requested : ∀ path, path ∈ s.requested ↔ path ∈ s.paths ∨ path ∈ handed ++ s.pending

namespace Worklist

variable {s t : Session} {supplied : List SourceFile} {handed : List String}

theorem empty : Worklist Session.empty [] [] := by
  constructor <;> simp [Session.empty, Session.paths, wanted, firstSupplied]

/-- A file that is new adds what it wants to the queue. -/
theorem eraseDups_wanted_concat (h : Worklist s supplied handed) (parsed : ParsedFile) :
    (wanted [] (s.files ++ [parsed])).eraseDups =
      (wanted [] s.files).eraseDups ++ s.requestsOf parsed := by
  rw [wanted_concat, List.eraseDups_append, requestsOf, newRequests_eq, List.removeAll,
    List.filter_filter]
  congr 2
  refine List.filter_congr fun path _ => ?_
  have hnoted : path ∈ s.requested ↔ path ∈ s.paths ∨ path ∈ wanted [] s.files := by
    rw [h.requested, h.issued, List.mem_eraseDups]
  rw [Bool.eq_iff_iff]
  simp only [List.nil_append, List.elem_eq_mem, Bool.and_eq_true, Bool.not_eq_true',
    decide_eq_false_iff_not, decide_eq_true_eq, List.mem_append, List.mem_cons, hnoted, Session.paths]
  grind

/-- A file that is supplied is read if it is the first under its path, and is ignored otherwise. -/
theorem supply (h : Worklist s supplied handed) (file : SourceFile) :
    Worklist (s.supply file) (supplied ++ [file]) handed := by
  have hpaths : (s.supply file).paths = ((supplied ++ [file]).map SourceFile.path).eraseDups := by
    rw [List.map_append]
    exact paths_supply_eraseDups h.paths file
  have hknown_iff : file.path ∈ supplied.map SourceFile.path ↔ file.path ∈ s.paths := by
    rw [h.paths, List.mem_eraseDups]
  by_cases hknown : file.path ∈ s.paths
  · have hsame : firstSupplied (supplied ++ [file]) = firstSupplied supplied := by
      rw [firstSupplied_concat, if_pos (hknown_iff.mpr hknown)]
    rw [supply_of_mem hknown] at hpaths ⊢
    exact ⟨hsame ▸ h.files, hpaths, h.issued, h.requested⟩
  · have hmore : firstSupplied (supplied ++ [file]) = firstSupplied supplied ++ [file] := by
      rw [firstSupplied_concat, if_neg fun hagain => hknown (hknown_iff.mp hagain)]
    rw [supply_of_notMem hknown] at hpaths ⊢
    refine ⟨?_, hpaths, ?_, ?_⟩
    · rw [hmore, List.map_append, ← h.files]
      rfl
    · show handed ++ (s.pending ++ _) = _
      rw [← List.append_assoc, h.issued, h.eraseDups_wanted_concat]
    · intro path
      have hown : (ParsedFile.parse file.path file.text).path = file.path := rfl
      simp only [Session.paths, List.map_append, List.map_cons, List.map_nil, hown, List.mem_append,
        List.mem_reverse, List.mem_cons, List.not_mem_nil, or_false, h.requested]
      grind

/-- The next import goes from the pending ones to those handed out. -/
theorem nextImport (h : Worklist s supplied handed) :
    Worklist s.nextImport.2 supplied (handed ++ s.nextImport.1.toList) := by
  rcases hnext : s.nextImport with ⟨_ | path, t⟩
  · obtain ⟨-, rfl⟩ := nextImport_eq_none_iff.mp hnext
    simpa using h
  · obtain ⟨rest, hpending, rfl⟩ := nextImport_eq_some_iff.mp hnext
    have hsame : handed ++ [path] ++ rest = handed ++ s.pending := by
      rw [hpending, List.append_assoc, List.singleton_append]
    refine ⟨h.files, h.paths, ?_, ?_⟩
    · show handed ++ [path] ++ rest = _
      rw [hsame, h.issued]
    · intro path'
      show _ ↔ _ ∨ path' ∈ handed ++ [path] ++ rest
      rw [hsame]
      exact h.requested path'

/-- What was handed out or is pending was met as an import of one of the files. -/
theorem exists_first_import (h : Worklist s supplied handed) {path : String}
    (hissued : path ∈ handed ++ s.pending) :
    ∃ before f after, s.files = before ++ f :: after ∧ path ∈ importPaths f ∧
      (∀ g ∈ before, path ∉ importPaths g) ∧ path ∉ (before ++ [f]).map ParsedFile.path := by
  rw [h.issued, List.mem_eraseDups] at hissued
  simpa using exists_first_of_mem_wanted hissued

/-- Every import of every file was handed out, is pending, or leads to a file that was read. -/
theorem import_cases (h : Worklist s supplied handed) {f : ParsedFile} (hread : f ∈ s.files)
    {path : String} (hmet : path ∈ importPaths f) :
    path ∈ handed ∨ path ∈ s.pending ∨ path ∈ s.paths := by
  have hreached : path ∈ [] ∨ path ∈ s.paths ∨ path ∈ wanted [] s.files := mem_wanted_or hmet hread
  rcases hreached with hnone | hread | hlater
  · exact nomatch hnone
  · exact .inr (.inr hread)
  · rw [← List.mem_eraseDups, ← h.issued] at hlater
    rcases List.mem_append.mp hlater with hhanded | hpending
    · exact .inl hhanded
    · exact .inr (.inl hpending)

/-- The paths of the files are pairwise distinct. -/
theorem nodup_paths (h : Worklist s supplied handed) : s.paths.Nodup := by
  rw [h.paths]
  exact nodup_eraseDups _

/-- Diagnostics are no part of the worklist. -/
theorem of_waiting (h : Worklist s supplied handed) (waiting : List Diagnostic) :
    Worklist { s with waiting } supplied handed :=
  ⟨h.files, h.paths, h.issued, h.requested⟩

end Worklist

/-! ### Any sequence of operations -/

/-- Something that can be done with a session. -/
inductive Operation where
  | supply (file : SourceFile)
  | nextImport
  | nextDiagnostic
  | compile (options : CompileOptions)
  deriving DecidableEq, Repr

/-- A session with the files that it was supplied with, the entry first, and the paths that it handed
out. -/
structure History where
  session : Session
  supplied : List SourceFile
  handed : List String

namespace History

/-- A session that was just started. -/
def start (entry : SourceFile) : History :=
  ⟨.start entry, [entry], []⟩

/-- A session with one more thing done. -/
def step (h : History) : Operation → History
  | .supply file => { h with session := h.session.supply file, supplied := h.supplied ++ [file] }
  | .nextImport =>
    { h with session := h.session.nextImport.2, handed := h.handed ++ h.session.nextImport.1.toList }
  | .nextDiagnostic => { h with session := h.session.nextDiagnostic.2 }
  | .compile options => { h with session := (h.session.compile options).2 }

/-- A session that was started on a file and driven by some operations. -/
def drive (entry : SourceFile) (operations : List Operation) : History :=
  operations.foldl step (start entry)

/-- Every operation keeps the worklist. -/
theorem worklist_step {h : History} (hkept : Worklist h.session h.supplied h.handed) :
    (operation : Operation) →
      Worklist (h.step operation).session (h.step operation).supplied (h.step operation).handed
  | .supply file => hkept.supply file
  | .nextImport => hkept.nextImport
  | .nextDiagnostic => by
      show Worklist h.session.nextDiagnostic.2 h.supplied h.handed
      unfold nextDiagnostic
      split
      · exact hkept
      · exact hkept.of_waiting _
  | .compile options => hkept.of_waiting _

/-- Every sequence of operations keeps the worklist. -/
theorem worklist_drive (entry : SourceFile) (operations : List Operation) :
    Worklist (drive entry operations).session (drive entry operations).supplied
      (drive entry operations).handed := by
  have hbegun : Worklist (Session.start entry) [entry] [] := Worklist.empty.supply entry
  suffices ∀ h : History, Worklist h.session h.supplied h.handed →
      Worklist (operations.foldl step h).session (operations.foldl step h).supplied
        (operations.foldl step h).handed from this (start entry) hbegun
  induction operations with
  | nil => exact fun h hkept => hkept
  | cons operation operations ih => exact fun h hkept => ih _ (worklist_step hkept operation)

end History

/-- **The worklist of a session.** However a session is driven after it was started on a file,

* its files are those that were supplied first under their paths, in order and each once;
* no path is handed out twice, and each path that was handed out had not been read when it was first
  met as an import;
* the paths handed out, followed by those still pending, are the imports that were met, in the order
  of the files, other than those read by then, each at its first place;
* every import of every file was handed out, is pending, or leads to a file that was read. -/
theorem drive_worklist (entry : SourceFile) (operations : List Operation) :
    let history := History.drive entry operations
    let s := history.session
    s.paths.Nodup ∧
      s.paths = (history.supplied.map SourceFile.path).eraseDups ∧
      s.files = (firstSupplied history.supplied).map
        (fun file => ParsedFile.parse file.path file.text) ∧
      history.handed.Nodup ∧
      (∀ path ∈ history.handed, ∃ before f after, s.files = before ++ f :: after ∧
        path ∈ importPaths f ∧ (∀ g ∈ before, path ∉ importPaths g) ∧
        path ∉ (before ++ [f]).map ParsedFile.path) ∧
      history.handed ++ s.pending = (wanted [] s.files).eraseDups ∧
      ∀ f ∈ s.files, ∀ path ∈ importPaths f,
        path ∈ history.handed ∨ path ∈ s.pending ∨ path ∈ s.paths := by
  intro history s
  have hkept : Worklist s history.supplied history.handed :=
    History.worklist_drive entry operations
  have hdistinct : (history.handed ++ s.pending).Nodup := by
    rw [hkept.issued]
    exact nodup_eraseDups _
  refine ⟨hkept.nodup_paths, hkept.paths, hkept.files, (List.nodup_append'.mp hdistinct).1, ?_,
    hkept.issued, ?_⟩
  · intro path hhanded
    exact hkept.exists_first_import (List.mem_append_left _ hhanded)
  · intro f hread path hmet
    exact hkept.import_cases hread hmet

end Session

end Wasmline
