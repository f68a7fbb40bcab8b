import Wasmline.Proofs.Run.Agreement
import Wasmline.Proofs.Run.Exactness
import Wasmline.Proofs.Source.Respelling
import Mathlib.Logic.Relation

/-!
# Entries with a dot in front of them

A run on the entry `./main` and a run on `main` read the same text, under two paths. The imports of
every file are then found at the same places, so the two sessions differ in nothing but the path of
their first file (`Respelled`), step by step, as long as no import leads to the entry itself. The two
runs then end alike and write the same.

A path that leads back to the entry is known to the one session already, and taken for another file by
the other. That session then holds the entry twice, and whatever it declares is declared twice.
-/

namespace Wasmline

open Wasmline.Path (dotted IsRelative)

/-- Names with a dot in front and without are answered alike. -/
def Loader.IgnoresDots (loader : Loader) : Prop :=
  ∀ name, IsRelative name → loader (dotted name) = loader name

/-- The imports of the file that a path leads to. -/
def importsOf (loader : Loader) (extension path : String) : List String :=
  match locate loader extension path with
  | some (known, text) => Session.importPaths (ParsedFile.parse known text)
  | none => []

/-- The file that a path leads to has an import of this path. -/
def Imports (loader : Loader) (extension path imported : String) : Prop :=
  imported ∈ importsOf loader extension path

/-- The path is not one of these, and does not lead to a file that is known by one of them. -/
def LeadsElsewhere (loader : Loader) (extension : String) (spellings : List String)
    (path : String) : Prop :=
  path ∉ spellings ∧ canonical loader extension path ∉ spellings.map some

instance (loader : Loader) (extension : String) (spellings : List String) (path : String) :
    Decidable (LeadsElsewhere loader extension spellings path) :=
  inferInstanceAs (Decidable (_ ∧ _))

/-- No import that the entry leads to, over however many files, leads back to the entry, with a dot in
front or without. -/
def NoWayBack (loader : Loader) (extension entry : String) : Prop :=
  ∀ known, canonical loader extension entry = some known →
    ∀ path, Relation.TransGen (Imports loader extension) entry path →
      LeadsElsewhere loader extension [known, dotted known] path

theorem Imports.of_locate {loader : Loader} {extension path known text imported : String}
    (hfound : locate loader extension path = some (known, text))
    (hmember : imported ∈ Session.importPaths (ParsedFile.parse known text)) :
    Imports loader extension path imported := by
  unfold Imports importsOf
  rw [hfound]
  exact hmember

/-- There is no way back if a set of paths elsewhere holds the imports of the entry and its own. -/
theorem noWayBack_of_closed {loader : Loader} {extension entry known : String}
    (paths : List String) (hlocated : canonical loader extension entry = some known)
    (hclosed : ∀ path ∈ entry :: paths, importsOf loader extension path ⊆ paths)
    (helsewhere : ∀ path ∈ paths, LeadsElsewhere loader extension [known, dotted known] path) :
    NoWayBack loader extension entry := by
  intro known' hlocated' path hreached
  obtain rfl := Option.some.inj (hlocated.symm.trans hlocated')
  apply helsewhere
  induction hreached with
  | single himported => exact hclosed _ List.mem_cons_self himported
  | tail _ himported hmember => exact hclosed _ (List.mem_cons_of_mem _ hmember) himported

/-- An entry with a dot in front leads to the same text. -/
theorem locate_dotted {loader : Loader} (hignores : loader.IgnoresDots) {extension path : String}
    (hplain : '/' ∉ extension.toList) (hrelative : IsRelative (Path.normalize path extension)) :
    locate loader extension (dotted path) =
      (locate loader extension path).map fun file => (dotted file.1, file.2) := by
  have hdirect := hignores _ (hrelative.append extension)
  have hindex := hignores _ ((hrelative.append "/index").append extension)
  rw [locate_eq, locate_eq, Path.normalize_dotted hplain hrelative, Path.dotted_append,
    Path.dotted_append, Path.dotted_append, hdirect, hindex]
  cases (loader (Path.normalize path extension ++ extension)).text? with
  | some text => rfl
  | none =>
      cases (loader (Path.normalize path extension ++ "/index" ++ extension)).text? <;> rfl

/-! ### Sessions -/

namespace Session

/-- Requests are new or not by membership in what was requested. -/
theorem newRequests_congr {requested requested' paths : List String}
    (hsame : ∀ path ∈ paths, path ∈ requested ↔ path ∈ requested') :
    newRequests requested paths = newRequests requested' paths := by
  rw [newRequests_eq, newRequests_eq]
  refine congrArg List.eraseDups (List.filter_congr fun path hmember => ?_)
  simp only [hsame path hmember]

/-- Two sessions that differ in the path of their first file only, which has a dot in front of it in
the second. -/
structure Respelled (known text : String) (s s' : Session) : Prop where
  files : ∃ rest, s.files = ParsedFile.parse known text :: rest ∧
    s'.files = ParsedFile.parse (dotted known) text :: rest
  requested : ∀ path, path ∉ [known, dotted known] → (path ∈ s.requested ↔ path ∈ s'.requested)
  pending : s'.pending = s.pending
  waiting : s'.waiting.map Diagnostic.severity = s.waiting.map Diagnostic.severity

namespace Respelled

variable {known text : String} {s s' : Session}

theorem mem_paths_iff (h : Respelled known text s s') {path : String}
    (helsewhere : path ∉ [known, dotted known]) : path ∈ s.paths ↔ path ∈ s'.paths := by
  obtain ⟨rest, hfiles, hfiles'⟩ := h.files
  have hne : path ≠ known ∧ path ≠ dotted known := by simpa using helsewhere
  simp only [paths, hfiles, hfiles', List.map_cons, List.mem_cons, ParsedFile.parse, hne.1, hne.2]

/-- A file that does not lead back is taken alike. -/
theorem supply (h : Respelled known text s s') (file : SourceFile)
    (helsewhere : file.path ∉ [known, dotted known])
    (himports : ∀ path ∈ importPaths (ParsedFile.parse file.path file.text),
      path ∉ [known, dotted known]) :
    Respelled known text (s.supply file) (s'.supply file) := by
  by_cases hread : file.path ∈ s.paths
  · rw [supply_of_mem hread, supply_of_mem ((h.mem_paths_iff helsewhere).mp hread)]
    exact h
  · have hread' : file.path ∉ s'.paths := fun hthere => hread ((h.mem_paths_iff helsewhere).mpr hthere)
    have hnew : s'.requestsOf (ParsedFile.parse file.path file.text) =
        s.requestsOf (ParsedFile.parse file.path file.text) := by
      refine newRequests_congr fun path hmember => ?_
      rw [List.mem_cons, List.mem_cons, h.requested path (himports path hmember)]
    obtain ⟨rest, hfiles, hfiles'⟩ := h.files
    rw [supply_of_notMem hread, supply_of_notMem hread']
    refine ⟨⟨rest ++ [ParsedFile.parse file.path file.text], ?_, ?_⟩, ?_, ?_, ?_⟩
    · simp only [hfiles, List.cons_append]
    · simp only [hfiles', List.cons_append]
    · intro path hother
      simp only [hnew, List.mem_append, List.mem_cons, h.requested path hother]
    · simp only [hnew, h.pending]
    · simp only [List.map_append, h.waiting]

/-- Sessions on an entry with a dot in front and without. -/
theorem start (himports : ∀ path ∈ importPaths (ParsedFile.parse known text),
    path ∉ [known, dotted known]) :
    Respelled known text (.start ⟨known, text, .entry⟩) (.start ⟨dotted known, text, .entry⟩) := by
  have hnew : empty.requestsOf (ParsedFile.parse (dotted known) text) =
      empty.requestsOf (ParsedFile.parse known text) := by
    unfold requestsOf
    rw [ParsedFile.imports_dotted]
    refine newRequests_congr fun path hmember => ?_
    have hne : path ≠ known ∧ path ≠ dotted known := by simpa using himports path hmember
    simp [ParsedFile.parse, empty, hne.1, hne.2]
  rw [Session.start, Session.start, supply_of_notMem (by simp [empty, paths]),
    supply_of_notMem (by simp [empty, paths])]
  refine ⟨⟨[], rfl, rfl⟩, ?_, ?_, ?_⟩
  · intro path hother
    have hne : path ≠ known ∧ path ≠ dotted known := by simpa using hother
    simp only [hnew, List.mem_append, List.mem_cons, hne.1, hne.2]
  · simp only [hnew]
  · simp only [empty, List.nil_append, ParsedFile.severity_diagnostics_dotted]

theorem nextImport (h : Respelled known text s s') (rest : List String) :
    Respelled known text { s with pending := rest } { s' with pending := rest } :=
  ⟨h.files, h.requested, rfl, h.waiting⟩

end Respelled

/-- What is pending behind a file was pending before or is an import of the file. -/
theorem mem_pending_supply {s : Session} {file : SourceFile} {path : String}
    (h : path ∈ (s.supply file).pending) :
    path ∈ s.pending ∨ path ∈ importPaths (ParsedFile.parse file.path file.text) := by
  by_cases hread : file.path ∈ s.paths
  · rw [supply_of_mem hread] at h
    exact .inl h
  · rw [supply_of_notMem hread] at h
    rcases List.mem_append.mp h with h | h
    · exact .inl h
    · exact .inr (mem_newRequests.mp h).1

end Session

/-! ### Discovery -/

section Discovery

variable {loader : Loader} {extension entry known text : String}

/-- Two discoveries that differ in the path of the entry only. -/
def GatheredAlike (known text : String) (g g' : Gathered Engine.standard) : Prop :=
  Session.Respelled known text g.session g'.session ∧
    ∃ rest, g.files = known :: rest ∧ g'.files = dotted known :: rest

/-- Requests are answered alike as long as none leads back to the entry. -/
theorem agree_gather
    (hapart : ∀ path, Relation.TransGen (Imports loader extension) entry path →
      LeadsElsewhere loader extension [known, dotted known] path) :
    (limit : Nat) → {s s' : Engine.standard.Session} → (files : List String) →
      Session.Respelled known text s s' →
      (∀ path ∈ Session.pending s, Relation.TransGen (Imports loader extension) entry path) →
        Work.Agree (GatheredAlike known text)
          (gather Engine.standard loader extension limit ⟨s, known :: files⟩)
          (gather Engine.standard loader extension limit ⟨s', dotted known :: files⟩)
  | 0, _, _, _, _, _ => ⟨.error .unfinished, rfl⟩
  | limit + 1, s, s', files, h, hreached => by
      -- Both sessions hand out the same path, as what is pending is the same on both sides.
      rcases hnext : Engine.standard.nextImport s with ⟨_ | path, t⟩
      · obtain ⟨hdone, rfl⟩ := Session.nextImport_eq_none_iff.mp hnext
        have hnext' : Engine.standard.nextImport s' = (none, s') :=
          Session.nextImport_eq_none_iff.mpr ⟨h.pending.trans hdone, rfl⟩
        rw [gather_succ_of_none hnext, gather_succ_of_none hnext']
        exact .emit_bind rfl rfl (.pure ⟨h, files, rfl, rfl⟩)
      · obtain ⟨rest, hpending, rfl⟩ := Session.nextImport_eq_some_iff.mp hnext
        have hnext' : Engine.standard.nextImport s' = (some path, { s' with pending := rest }) :=
          Session.nextImport_eq_some_iff.mpr ⟨rest, h.pending.trans hpending, rfl⟩
        have hasked := hreached path (by simp [hpending])
        rw [gather_succ_of_some hnext, gather_succ_of_some hnext']
        refine .emit_bind rfl rfl ?_
        cases hfound : locate loader extension path with
        | none =>
            have hmissing := result_resolve_of_locate_none hfound .imported
            rw [Work.bind_of_error hmissing, Work.bind_of_error hmissing]
            exact ⟨.error _, rfl⟩
        | some file =>
            obtain ⟨name, body⟩ := file
            have himports : ∀ q ∈ Session.importPaths (ParsedFile.parse name body),
                Relation.TransGen (Imports loader extension) entry q := fun q hmember =>
              hasked.tail (.of_locate hfound hmember)
            -- Neither the file nor its imports are the entry under another spelling.
            have helsewhere : name ∉ [known, dotted known] := fun hthere => by
              apply (hapart path hasked).2
              rw [canonical, hfound]
              exact List.mem_map_of_mem hthere
            have hsupplied := (h.nextImport rest).supply ⟨name, body, .imported⟩ helsewhere
              fun q hmember => (hapart q (himports q hmember)).1
            refine .bind_of_ok (result_resolve_of_locate hfound .imported) ?_
            refine .note_bind (.emit_bind ?_ ?_ ?_)
            · simp
            · simp
            · refine agree_gather hapart limit (files ++ [name]) hsupplied fun q hmember => ?_
              rcases Session.mem_pending_supply hmember with hmember | hmember
              · exact hreached q (by simp [hpending, hmember])
              · exact himports q hmember

/-- Discovery behind an entry that is found. -/
theorem agree_discoverFrom
    (hapart : ∀ path, Relation.TransGen (Imports loader extension) entry path →
      LeadsElsewhere loader extension [known, dotted known] path)
    (hfound : locate loader extension entry = some (known, text)) (limit : Nat) :
    Work.Agree (GatheredAlike known text)
      (discoverFrom Engine.standard loader extension limit ⟨known, text, .entry⟩)
      (discoverFrom Engine.standard loader extension limit ⟨dotted known, text, .entry⟩) := by
  have himports : ∀ q ∈ Session.importPaths (ParsedFile.parse known text),
      Relation.TransGen (Imports loader extension) entry q := fun q hmember =>
    .single (.of_locate hfound hmember)
  have hstarted := Session.Respelled.start fun q hmember => (hapart q (himports q hmember)).1
  unfold discoverFrom
  refine .note_bind (.emit_bind ?_ ?_ (.bind (R := GatheredAlike known text) ?_ ?_))
  · simp
  · simp
  · refine agree_gather hapart limit [] hstarted fun q hmember => ?_
    rcases Session.mem_pending_supply hmember with hmember | hmember
    · exact nomatch hmember
    · exact himports q hmember
  · intro g g' halike
    exact .note_bind (.pure halike)

end Discovery

/-! ### Runs -/

section Runs

variable {loader : Loader} {sink : Sink} {stream : ErrorStream} {limit : Nat} {config : Config}
  {colorize : Bool} {known text : String}

/-- The same configuration, with a dot in front of the entry. -/
def Config.dotted (config : Config) : Config :=
  { config with entry := Path.dotted config.entry }

/-- Two outcomes that differ in the path of the entry only. -/
def OutcomeAlike (known : String) (o o' : Outcome) : Prop :=
  ∃ rest, o.files = known :: rest ∧ o' = { o with files := Path.dotted known :: rest }

/-- The session that compiling leaves has the reports of the program waiting, if all that waited before
was taken. -/
theorem waiting_compilation (hroom : stream.room = none) (s : Engine.standard.Session) :
    Engine.standard.waiting (compilation Engine.standard stream config colorize s).2.1 =
      Lowered.reports (Session.files s) := by
  obtain ⟨-, hrest, -, -⟩ := drainFrom_of_room_eq_none
    (fun d => Engine.standard.format d colorize) hroom .zero (Session.waiting s)
  exact congrArg (· ++ Lowered.reports (Session.files s)) hrest

/-- A report on what was compiled starts with a stream that has taken the one before and was flushed. -/
theorem compileReport_eq (hroom : stream.room = none) (s : Engine.standard.Session) :
    compileReport Engine.standard stream config colorize s =
      drain (fun d => Engine.standard.format d colorize) stream.flush
        (Lowered.reports (Session.files s)) := by
  obtain ⟨-, -, htaken, -⟩ := drainFrom_of_room_eq_none
    (fun d => Engine.standard.format d colorize) hroom .zero (Session.waiting s)
  rw [compileReport, waiting_compilation hroom, parseReport]
  exact congrFun (congrArg (drain _) htaken) _

/-- Behind two discoveries that differ in the path of the entry only, the same is compiled, reported and
written. -/
theorem agree_runParsed (hroom : stream.room = none) {g g' : Gathered Engine.standard}
    (h : GatheredAlike known text g g') :
    Work.Agree (OutcomeAlike known) (runParsed Engine.standard sink stream config colorize g)
      (runParsed Engine.standard sink stream config.dotted colorize g') := by
  obtain ⟨hrespelled, rest, hfiles, hfiles'⟩ := h
  have hcontent : (Session.files g'.session).map ParsedFile.content =
      (Session.files g.session).map ParsedFile.content := by
    obtain ⟨others, hparsed, hparsed'⟩ := hrespelled.files
    rw [hparsed, hparsed', List.map_cons, List.map_cons, ParsedFile.content_dotted]
  obtain ⟨hprogram, hseverities⟩ := Lowered.ofFiles_congr hcontent config.options
  -- The path of a file shows in reports, but not in the program and not in how grave a report is.
  have hartifact : (compilation Engine.standard stream config.dotted colorize g'.session).1 =
      (compilation Engine.standard stream config colorize g.session).1 := hprogram
  have hflushed : stream.flush.room = none := hroom
  have hreport := agree_gate_drain (fun d => Engine.standard.format d colorize) hflushed hseverities
    .compiling
  have htally := tally_drain_congr (fun d => Engine.standard.format d colorize) hflushed hseverities
  have hparsing : (parseReport Engine.standard stream colorize g'.session).tally =
      (parseReport Engine.standard stream colorize g.session).tally :=
    tally_drain_congr _ hroom hrespelled.waiting
  unfold runParsed
  rw [compileReport_eq hroom, compileReport_eq hroom]
  refine .note_bind (.emit_bind (by simp) (by simp) (.bind (R := Eq) ?_ ?_))
  · rw [hartifact]
    exact agree_finish hreport
  · rintro _ _ -
    refine .note_bind (.pure ⟨rest, hfiles, ?_⟩)
    rw [hfiles', hparsing]
    exact congrArg (fun t : Tally => Outcome.mk _ _ (_ + t.warnings)) htally

/-- Two runs end alike: with outcomes that differ in the path of the entry only, or with the same
failure, or without the entry file, which is then named as it was asked for. -/
inductive SameEnding : Except Halt Outcome → Except Halt Outcome → Prop
  | success (known : String) (rest : List String) (emissions : List Emission) (warnings : Nat) :
      SameEnding (.ok ⟨known :: rest, emissions, warnings⟩)
        (.ok ⟨Path.dotted known :: rest, emissions, warnings⟩)
  | failure (halt : Halt) : SameEnding (.error halt) (.error halt)
  | missing (file : String) :
      SameEnding (.error (.failure (.fileNotFound file .entry)))
        (.error (.failure (.fileNotFound (Path.dotted file) .entry)))

theorem SameEnding.of_endAlike {r r' : Except Halt Outcome} (h : EndAlike (OutcomeAlike known) r r') :
    SameEnding r r' := by
  cases h with
  | error halt => exact .failure halt
  | @ok o o' halike =>
      obtain ⟨files, emissions, warnings⟩ := o
      obtain ⟨rest, rfl, rfl⟩ := halike
      exact .success known rest emissions warnings

variable (sink limit colorize) in
/-- A run whose entry is found, and another with a dot in front of it. -/
theorem agree_run (hignores : loader.IgnoresDots) (hplain : '/' ∉ config.extension.toList)
    (hrelative : IsRelative (Path.normalize config.entry config.extension))
    (hroom : stream.room = none) (hapart : NoWayBack loader config.extension config.entry)
    (hfound : locate loader config.extension config.entry = some (known, text)) :
    Work.Agree (OutcomeAlike known) (run Engine.standard loader sink stream limit config colorize)
      (run Engine.standard loader sink stream limit config.dotted colorize) := by
  have hfound' : locate loader config.extension (Path.dotted config.entry) =
      some (Path.dotted known, text) := by
    rw [locate_dotted hignores hplain hrelative, hfound, Option.map_some]
  have hresolved : Work.Agree
      (fun f f' => f = ⟨known, text, .entry⟩ ∧ f' = ⟨Path.dotted known, text, .entry⟩)
      (resolve loader config.extension config.entry .entry)
      (resolve loader config.extension (Path.dotted config.entry) .entry) := by
    refine ⟨?_, ?_⟩
    · rw [result_resolve_of_locate hfound, result_resolve_of_locate hfound']
      exact .ok ⟨rfl, rfl⟩
    · rw [writes_resolve, writes_resolve]
  have hdiscovered : Work.Agree (GatheredAlike known text)
      (discover Engine.standard loader config.extension config.entry limit)
      (discover Engine.standard loader config.extension (Path.dotted config.entry) limit) := by
    rw [discover_eq, discover_eq]
    refine hresolved.bind ?_
    rintro _ _ ⟨rfl, rfl⟩
    exact agree_discoverFrom (hapart known (by simp [canonical, hfound])) hfound limit
  rw [run_eq, run_eq]
  refine hdiscovered.bind fun g g' halike => ?_
  refine .bind (agree_gate_drain _ hroom halike.1.waiting .parsing) fun _ _ _ => ?_
  exact agree_runParsed hroom halike

/-- Without an entry file both runs fail, and nothing is written. -/
theorem run_of_locate_eq_none (hmissing : locate loader config.extension config.entry = none) :
    (run Engine.standard loader sink stream limit config colorize).result =
        .error (.failure (.fileNotFound
          (Path.normalize config.entry config.extension ++ config.extension) .entry)) ∧
      (run Engine.standard loader sink stream limit config colorize).trace Event.write? = [] := by
  have hstopped : (discover Engine.standard loader config.extension config.entry limit).result =
      .error (.failure (.fileNotFound
        (Path.normalize config.entry config.extension ++ config.extension) .entry)) := by
    rw [discover_eq, Work.bind_of_error (result_resolve_of_locate_none hmissing .entry)]
  rw [run_eq]
  refine ⟨?_, ?_⟩
  · rw [Work.bind_of_error hstopped]
  · rw [Work.trace_bind_of_error _ hstopped, writes_discover]

/-! ### Ways back -/

/-- The file is what the loader has under its path. -/
def HeldBy (loader : Loader) (extension : String) (f : ParsedFile) : Prop :=
  ∃ text, (loader (f.path ++ extension)).text? = some text ∧ f = ParsedFile.parse f.path text

theorem Session.heldBy_supply {extension : String} {s : Session} {file : SourceFile}
    (h : ∀ f ∈ s.files, HeldBy loader extension f)
    (hheld : (loader (file.path ++ extension)).text? = some file.text) :
    ∀ f ∈ (s.supply file).files, HeldBy loader extension f := by
  by_cases hread : file.path ∈ s.paths
  · rwa [supply_of_mem hread]
  · rw [supply_of_notMem hread]
    refine List.forall_mem_append.mpr ⟨h, List.forall_mem_singleton.mpr ?_⟩
    exact ⟨file.text, hheld, rfl⟩

/-- Every file that a session comes to hold is what the loader has under its path. -/
theorem Answers.heldBy {extension : String} {s t : Engine.standard.Session}
    {answers : List (String × SourceFile)}
    (h : Answers Engine.standard loader extension s answers t)
    (hheld : ∀ f ∈ Session.files s, HeldBy loader extension f) :
    ∀ f ∈ Session.files t, HeldBy loader extension f := by
  refine h.invariant (P := fun s => ∀ f ∈ s.files, HeldBy loader extension f)
    (fun _ _ hkept => hkept) ?_ hheld
  intro s path known text hfound hkept
  exact Session.heldBy_supply hkept (text?_of_locate hfound)

theorem Session.head?_supply {s : Session} {f : ParsedFile} (h : s.files.head? = some f)
    (file : SourceFile) : (s.supply file).files.head? = some f := by
  by_cases hknown : file.path ∈ s.paths
  · rw [supply_of_mem hknown, h]
  · rw [supply_of_notMem hknown]
    simp [h]

/-- The entry file stays the first, whatever is supplied. -/
theorem Answers.head?_eq {extension : String} {s t : Engine.standard.Session}
    {answers : List (String × SourceFile)}
    (h : Answers Engine.standard loader extension s answers t) {f : ParsedFile}
    (hfirst : (Session.files s).head? = some f) : (Session.files t).head? = some f := by
  refine h.invariant (P := fun s => s.files.head? = some f) (fun _ _ hkept => hkept) ?_ hfirst
  intro s _ known text _ hkept
  exact Session.head?_supply hkept ⟨known, text, .imported⟩

/-- A run that succeeds has compiled declarations with names of their own. -/
theorem nodup_names_of_run {outcome : Outcome} {gathered : Gathered Engine.standard}
    (hroom : stream.room = none)
    (hfound : (discover Engine.standard loader config.extension config.entry limit).result =
      .ok gathered)
    (h : (run Engine.standard loader sink stream limit config colorize).result = .ok outcome) :
    ((Linked.all (Session.files gathered.session)).map Linked.name).Nodup := by
  have hpassed := Work.halt?_of_ok h
  rw [halt?_run, gates, hfound, List.findSome?_eq_none_iff] at hpassed
  have hclean := hpassed _ (List.mem_append_right _ (List.mem_append_left _
    (List.mem_cons_of_mem _ List.mem_cons_self)))
  rw [waiting_compilation hroom] at hclean
  have herrorless : ∀ r ∈ Lowered.reports (Session.files gathered.session),
      r.severity ≠ .error := by
    intro r hmember hbad
    have hreported : (Lowered.reports (Session.files gathered.session)).any Diagnostic.isError :=
      List.any_eq_true.mpr ⟨r, hmember, by simp [Diagnostic.isError, hbad]⟩
    rw [if_pos hreported] at hclean
    exact absurd hclean (Option.some_ne_none _)
  rw [← Linked.firsts_eq_self_of_repeats ((reports_clean_iff _).mp herrorless).1]
  exact Linked.nodup_names_firsts _

/-- If another file declares what the entry file declares, there is a name that is declared twice. -/
theorem not_nodup_names_all {entry f : ParsedFile} {files : List ParsedFile} (hother : f ∈ files)
    (hsame : f.content = entry.content) (hdeclares : f.functions ≠ []) :
    ¬ ((Linked.all (entry :: files)).map Linked.name).Nodup := by
  intro hnodup
  obtain ⟨d, hmember⟩ := List.exists_mem_of_ne_nil _ hdeclares
  have hcontent : d.unplaced ∈ entry.content := hsame ▸ List.mem_map_of_mem hmember
  obtain ⟨e, hmember', hunplaced⟩ := List.mem_map.mp hcontent
  have hname := congrArg Declaration.name hunplaced
  rw [Linked.all_cons, List.map_append, List.nodup_append'] at hnodup
  refine hnodup.2.2 (List.mem_map_of_mem (List.mem_map_of_mem hmember')) ?_
  refine List.mem_map.mpr ⟨⟨d, false⟩, ?_, hname.symm⟩
  exact List.mem_flatMap.mpr ⟨f, hother, List.mem_map_of_mem hmember⟩

/-- A session on an entry with a dot that comes to hold its text without the dot as well does not lead
to a success. -/
theorem run_ne_ok_of_wayBack (hignores : loader.IgnoresDots) (hplain : '/' ∉ config.extension.toList)
    (hrelative : IsRelative (Path.normalize config.entry config.extension))
    (hroom : stream.room = none)
    (hfound : locate loader config.extension config.entry = some (known, text))
    (hdeclares : (ParsedFile.parse known text).functions ≠ []) {gathered : Gathered Engine.standard}
    (hdiscovered : (discover Engine.standard loader config.extension config.dotted.entry
      limit).result = .ok gathered)
    (hback : known ∈ Session.paths gathered.session) (outcome : Outcome) :
    (run Engine.standard loader sink stream limit config.dotted colorize).result ≠ .ok outcome := by
  intro hsuccess
  have hnodup := nodup_names_of_run hroom hdiscovered hsuccess
  obtain ⟨known', text', answers, hfound', hsteps, -⟩ := discover_eq_ok hdiscovered
  have hspelled := locate_dotted hignores hplain hrelative
  rw [hfound] at hspelled
  obtain ⟨rfl, rfl⟩ := Prod.mk.inj (Option.some.inj (hfound'.symm.trans hspelled))
  have hfirst := hsteps.head?_eq (f := ParsedFile.parse (Path.dotted known) text') rfl
  have hstarted : ∀ f ∈ Session.files (Session.start ⟨Path.dotted known, text', .entry⟩),
      HeldBy loader config.extension f :=
    Session.heldBy_supply nofun (text?_of_locate hfound')
  -- The file without the dot is read from the same text as the entry.
  obtain ⟨f, hmember, hpath⟩ := List.mem_map.mp hback
  obtain ⟨body, hread, hsame⟩ := hsteps.heldBy hstarted f hmember
  rw [hpath] at hread hsame
  obtain rfl := Option.some.inj (hread.symm.trans (text?_of_locate hfound))
  cases hfiles : Session.files gathered.session with
  | nil =>
      rw [hfiles] at hfirst
      exact nomatch hfirst
  | cons entry rest =>
      rw [hfiles] at hfirst hmember hnodup
      obtain rfl := Option.some.inj hfirst
      have hother : f ∈ rest := by
        refine (List.mem_cons.mp hmember).resolve_left fun hhere => ?_
        exact Path.dotted_ne known ((congrArg ParsedFile.path hhere).symm.trans hpath)
      rw [← hsame] at hdeclares
      refine not_nodup_names_all hother ?_ hdeclares hnodup
      rw [hsame, ParsedFile.content_dotted]

end Runs

/-- **A dot in front of the entry changes nothing, unless there is a way back to the entry.** For a
relative entry, an extension without a slash, a loader that answers names with a dot in front and
without alike, and a stream that takes every byte, however its flushes go,

* if no import leads back to the entry, the run with the dot and the run without it end alike and have
  written the same outputs to the same destinations;
* if the session of the run with the dot comes to hold the entry file without the dot as well, and the
  file declares anything, that run does not succeed. -/
theorem run_dotted_entry (loader : Loader) (sink : Sink) (stream : ErrorStream) (limit : Nat)
    (config : Config) (colorize : Bool) (hignores : loader.IgnoresDots)
    (hplain : '/' ∉ config.extension.toList)
    (hrelative : IsRelative (Path.normalize config.entry config.extension))
    (hroom : stream.room = none) :
    (NoWayBack loader config.extension config.entry →
      SameEnding (run Engine.standard loader sink stream limit config colorize).result
          (run Engine.standard loader sink stream limit config.dotted colorize).result ∧
        (run Engine.standard loader sink stream limit config.dotted colorize).trace Event.write? =
          (run Engine.standard loader sink stream limit config colorize).trace Event.write?) ∧
      ∀ known text, locate loader config.extension config.entry = some (known, text) →
        (ParsedFile.parse known text).functions ≠ [] →
        ∀ gathered, (discover Engine.standard loader config.extension config.dotted.entry
            limit).result = .ok gathered → known ∈ Session.paths gathered.session →
          ∀ outcome, (run Engine.standard loader sink stream limit config.dotted colorize).result ≠
            .ok outcome := by
  refine ⟨fun hapart => ?_, fun known text hfound hdeclares gathered hdiscovered hback outcome =>
    run_ne_ok_of_wayBack hignores hplain hrelative hroom hfound hdeclares hdiscovered hback outcome⟩
  cases hfound : locate loader config.extension config.entry with
  | some file =>
      have hagree := agree_run sink limit colorize hignores hplain hrelative hroom hapart hfound
      exact ⟨.of_endAlike hagree.ends, hagree.writes⟩
  | none =>
      have hmissing : locate loader config.dotted.extension config.dotted.entry = none := by
        have hspelled := locate_dotted hignores hplain hrelative
        rwa [hfound, Option.map_none] at hspelled
      obtain ⟨hresult, hwrites⟩ := run_of_locate_eq_none hfound
      obtain ⟨hresult', hwrites'⟩ := run_of_locate_eq_none hmissing
      rw [hresult, hresult', hwrites, hwrites']
      refine ⟨?_, rfl⟩
      have hname : Path.normalize config.dotted.entry config.dotted.extension ++
            config.dotted.extension =
          Path.dotted (Path.normalize config.entry config.extension ++ config.extension) := by
        rw [← Path.dotted_append, ← Path.normalize_dotted hplain hrelative]
        rfl
      rw [hname]
      exact .missing _

/-! ### Circles of imports -/

/-- A name without the dots in front of it. -/
def withoutDots : List Char → List Char
  | '.' :: '/' :: name => withoutDots name
  | name => name

/-- Files held in memory under their names, with dots in front of them or without. -/
def Loader.ofDottedFiles (files : List (String × String)) : Loader := fun name =>
  Loader.ofFiles files (String.ofList (withoutDots name.toList))

theorem ignoresDots_ofDottedFiles (files : List (String × String)) :
    (Loader.ofDottedFiles files).IgnoresDots := by
  intro name _
  simp only [Loader.ofDottedFiles, Path.toList_dotted, withoutDots]

/-- An entry that uses another file. -/
def mainText : String :=
  "import \"./lib\";\nexport function main(): i32 \x7b return one(); \x7d\n"

/-- A file for the entry to use, with an import of its own. -/
def libText (imported : String) : String :=
  "import \"" ++ imported ++ "\";\nexport function one(): i32 \x7b return 1; \x7d\n"

/-- The entry and another file import each other. -/
def entryInCircle : Loader :=
  .ofDottedFiles [("main.ts", mainText), ("lib.ts", libText "./main")]

/-- The entry imports one of two files that import each other. -/
def circleBehindEntry : Loader :=
  .ofDottedFiles [("main.ts", mainText), ("lib.ts", libText "./util"),
    ("util.ts", "import \"./lib\";\n")]

/-- Checks an entry and writes it as text. -/
def entryToText (entry : String) : Config :=
  ⟨entry, ".ts", true, false, false, false, .none, ⟨none, none, none, none⟩⟩

/-- An entry in a circle of imports compiles, and declares its functions twice with a dot in front of
it. -/
theorem entryInCircle_fails_dotted :
    entryInCircle.IgnoresDots ∧
      (run Engine.standard entryInCircle (fun _ _ => none) ⟨none, .notFound, []⟩ 3
        (entryToText "main") false).halt? = none ∧
      (run Engine.standard entryInCircle (fun _ _ => none) ⟨none, .notFound, []⟩ 3
        (entryToText "main").dotted false).halt? = some (.failure (.compiling 1)) :=
  ⟨ignoresDots_ofDottedFiles _, by decide +kernel, by decide +kernel⟩

/-- A circle behind the entry leaves no way back to it, so that the dot changes nothing. -/
theorem circleBehindEntry_same_dotted :
    circleBehindEntry.IgnoresDots ∧ NoWayBack circleBehindEntry ".ts" "main" ∧
      (run Engine.standard circleBehindEntry (fun _ _ => none) ⟨none, .notFound, []⟩ 3
        (entryToText "main") false).halt? = none ∧
      SameEnding
        (run Engine.standard circleBehindEntry (fun _ _ => none) ⟨none, .notFound, []⟩ 3
          (entryToText "main") false).result
        (run Engine.standard circleBehindEntry (fun _ _ => none) ⟨none, .notFound, []⟩ 3
          (entryToText "main").dotted false).result ∧
      (run Engine.standard circleBehindEntry (fun _ _ => none) ⟨none, .notFound, []⟩ 3
          (entryToText "main").dotted false).trace Event.write? =
        (run Engine.standard circleBehindEntry (fun _ _ => none) ⟨none, .notFound, []⟩ 3
          (entryToText "main") false).trace Event.write? := by
  have hignores : circleBehindEntry.IgnoresDots := ignoresDots_ofDottedFiles _
  have hapart : NoWayBack circleBehindEntry ".ts" "main" := by
    have hlocated : canonical circleBehindEntry ".ts" "main" = some "main" := by decide +kernel
    refine noWayBack_of_closed ["lib", "util"] hlocated ?_ ?_
    · decide +kernel
    · decide +kernel
  refine ⟨hignores, hapart, by decide +kernel, ?_⟩
  exact (run_dotted_entry circleBehindEntry (fun _ _ => none) ⟨none, .notFound, []⟩ 3
    (entryToText "main") false hignores (by decide +kernel) (by decide +kernel) rfl).1 hapart

end Wasmline
