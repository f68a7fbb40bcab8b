import Wasmline.Proofs.Program.Reports
import Wasmline.Proofs.Run.Respelling
import Wasmline.Proofs.Source.Accounting

/-!
# The files that diagnostics name

A diagnostic is made when a file is read, or when the declarations of all files are put together, and
its place goes with it through the session, the queue and the report. So every place that a run reports
can be followed back to a file that the run has read (`exists_file_of_reported`), and the line that it
shows to the text of that file.

The name is another matter. A file is read under its path with the configured extension, and places are
named by its path with the extension of source files. The two are the same exactly if the configured
extension is that one: `reported_path_is_read_iff`.
-/

namespace Wasmline

/-! ### Places in a file -/

/-- The place is in the file of this name and text, and if it shows a line, that line is the one of its
number in the text. -/
structure Location.IsIn (l : Location) (file text : String) : Prop where
  path : l.path = file
  shows : ∀ shown, l.lineText = some shown →
    ∃ i, l.line = i + 1 ∧ (Text.lines text.toList)[i]? = some shown.toList

theorem NumberedLine.isIn_locate {text : String} {l : NumberedLine} (hmember : l ∈ all text)
    (file : String) (offset : Nat) : (l.locate file offset).IsIn file text := by
  obtain ⟨i, hline, hnumber, -⟩ := mem_all_iff.mp hmember
  refine ⟨rfl, ?_⟩
  intro shown hsame
  obtain rfl := Option.some.inj hsame
  exact ⟨i, hnumber, String.toList_ofList ▸ hline⟩

namespace ParsedFile

variable {path text : String}

/-- A function and its body are in the file that they were read from. -/
theorem isIn_of_mem_functions {d : Declaration} (hmember : d ∈ (parse path text).functions) :
    d.location.IsIn (fileName path) text ∧ d.bodyLocation.IsIn (fileName path) text := by
  obtain ⟨l, hline, hread⟩ := List.mem_filterMap.mp hmember
  unfold NumberedLine.function? at hread
  split at hread
  · cases hread
    exact ⟨NumberedLine.isIn_locate hline _ _, NumberedLine.isIn_locate hline _ _⟩
  · cases hread

/-- What is reported when a file is read is in that file. -/
theorem isIn_of_mem_diagnostics {d : Diagnostic} {l : Location}
    (hmember : d ∈ (parse path text).diagnostics) (hplace : d.location = some l) :
    l.IsIn (fileName path) text := by
  rw [diagnostics_parse] at hmember
  split at hmember
  · obtain rfl := List.mem_singleton.mp hmember
    obtain rfl := Option.some.inj hplace
    refine ⟨rfl, ?_⟩
    intro shown hline
    cases hline
  · rw [← filterMap_diagnostic?] at hmember
    obtain ⟨numbered, hline, hread⟩ := List.mem_filterMap.mp hmember
    unfold NumberedLine.diagnostic? at hread
    split at hread
    · cases hread
      obtain rfl := Option.some.inj hplace
      exact NumberedLine.isIn_locate hline _ _
    · cases hread

end ParsedFile

/-! ### Diagnostics in a session -/

/-- Every diagnostic that waits was made when one of the files was read. -/
def Session.WaitsForFiles (s : Session) : Prop :=
  ∀ d ∈ s.waiting, ∃ f ∈ s.files, d ∈ f.diagnostics

theorem Session.WaitsForFiles.supply {s : Session} (h : s.WaitsForFiles) (file : SourceFile) :
    (s.supply file).WaitsForFiles := by
  by_cases hread : file.path ∈ s.paths
  · rwa [supply_of_mem hread]
  · rw [supply_of_notMem hread]
    refine List.forall_mem_append.mpr ⟨?_, ?_⟩
    · intro d hmember
      obtain ⟨f, hold, hmade⟩ := h d hmember
      exact ⟨f, List.mem_append_left _ hold, hmade⟩
    · intro d hmember
      exact ⟨_, List.mem_append_right _ List.mem_cons_self, hmember⟩

section Answers

variable {loader : Loader} {extension : String}

theorem Answers.waitsForFiles {s t : Engine.standard.Session} {answers : List (String × SourceFile)}
    (h : Answers Engine.standard loader extension s answers t)
    (hwaits : Session.WaitsForFiles s) : Session.WaitsForFiles t := by
  refine h.invariant (P := Session.WaitsForFiles) (fun _ _ hkept => hkept) ?_ hwaits
  intro s path known text hfound hkept
  exact hkept.supply _

/-- A discovery has read every file of its session under the file's path and the extension, and what it
leaves waiting was made when those were read. -/
theorem session_of_discover {entry : String} {limit : Nat} {gathered : Gathered Engine.standard}
    (h : (discover Engine.standard loader extension entry limit).result = .ok gathered) :
    Session.WaitsForFiles gathered.session ∧
      ∀ f ∈ Session.files gathered.session, HeldBy loader extension f ∧
        f.path ++ extension ∈
          (discover Engine.standard loader extension entry limit).trace (Event.read? loader) := by
  obtain ⟨known, text, answers, hfound, hsteps, hfiles, -, hreads⟩ := discover_eq_ok h
  have hempty : Session.empty.WaitsForFiles := fun d hwaiting => absurd hwaiting List.not_mem_nil
  have hstarted : ∀ f ∈ Session.files (Session.start ⟨known, text, .entry⟩),
      HeldBy loader extension f :=
    Session.heldBy_supply (fun f hheld => absurd hheld List.not_mem_nil) (text?_of_locate hfound)
  have hbegun : Session.paths (Session.start ⟨known, text, .entry⟩) = [known].eraseDups :=
    Session.paths_start _
  have hpaths : Session.paths gathered.session = gathered.files.eraseDups := by
    rw [hfiles]
    exact hsteps.paths_eq hbegun
  refine ⟨hsteps.waitsForFiles (hempty.supply _), ?_⟩
  intro f hmember
  refine ⟨hsteps.heldBy hstarted f hmember, ?_⟩
  have hpath : f.path ∈ gathered.files := by
    rw [← List.mem_eraseDups, ← hpaths]
    exact List.mem_map_of_mem hmember
  rw [hreads]
  exact List.mem_map_of_mem hpath

end Answers

/-! ### Diagnostics in a report -/

section Report

variable (format : Diagnostic → String)

/-- What a report takes from the queue was in it. -/
theorem mem_of_mem_pulled {d : Diagnostic} : (stream : ErrorStream) → (tally : Tally) →
    (queue : List Diagnostic) → .nextDiagnostic (some d) ∈
      (drainFrom format stream tally queue).events.filterMap Event.call? → d ∈ queue
  | _, _, [], h => by
      rw [drainFrom, Work.calls_call_notes] at h
      exact absurd (List.mem_singleton.mp h) (by simp)
  | stream, tally, e :: queue, h => by
      by_cases hfits : stream.fits (reportBytes format e) = true
      · rw [drainFrom_cons_of_fits format hfits] at h
        rcases List.mem_cons.mp h with hsame | h
        · cases hsame
          exact List.mem_cons_self
        · exact List.mem_cons_of_mem e (mem_of_mem_pulled _ _ queue h)
      · rw [drainFrom_cons_of_not_fits format hfits] at h
        cases List.mem_singleton.mp h
        exact List.mem_cons_self

/-- What a report leaves in the queue was in it. -/
theorem rest_drainFrom_suffix : (stream : ErrorStream) → (tally : Tally) →
    (queue : List Diagnostic) → (drainFrom format stream tally queue).rest <:+ queue
  | _, _, [] => List.suffix_rfl
  | stream, tally, d :: queue => by
      by_cases hfits : stream.fits (reportBytes format d) = true
      · rw [drainFrom_cons_of_fits format hfits]
        exact (rest_drainFrom_suffix _ _ queue).trans (List.suffix_cons d queue)
      · rw [drainFrom_cons_of_not_fits format hfits]
        exact List.suffix_cons d queue

end Report

section Run

variable {loader : Loader} {sink : Sink} {stream : ErrorStream} {limit : Nat} {config : Config}
  {colorize : Bool} {d : Diagnostic}

/-- What is reported behind the first report was left by it or is about the program. -/
theorem mem_of_reported_runParsed {gathered : Gathered Engine.standard}
    (h : .nextDiagnostic (some d) ∈
      (runParsed Engine.standard sink stream config colorize gathered).trace Event.call?) :
    d ∈ Session.waiting gathered.session ∨
      d ∈ Lowered.reports (Session.files gathered.session) := by
  obtain ⟨used, hcalls, hsteps, -⟩ := calls_useArtifact Engine.standard sink config
    (compilation Engine.standard stream config colorize gathered.session).1
    (compileReport Engine.standard stream config colorize gathered.session)
  rw [runParsed, Work.calls_note_bind, Work.trace_emit_bind, Work.calls_call_notes,
    Work.trace_bind_of_silent (fun _ => rfl), calls_finish, hcalls] at h
  simp only [List.mem_append, List.mem_singleton, reduceCtorEq, false_or, or_false] at h
  rcases h with h | h
  · have hqueued := mem_of_mem_pulled _ _ _ _ h
    rcases List.mem_append.mp hqueued with hqueued | hqueued
    · exact .inl ((rest_drainFrom_suffix _ _ _ _).subset hqueued)
    · exact .inr hqueued
  · cases phase_useCalls config _ (hsteps.subset h)

/-- What a run reports waited when all files were read, or is about the program that they are. -/
theorem exists_gathered_of_reported
    (h : .nextDiagnostic (some d) ∈
      (run Engine.standard loader sink stream limit config colorize).trace Event.call?) :
    ∃ gathered,
      (discover Engine.standard loader config.extension config.entry limit).result = .ok gathered ∧
      (d ∈ Session.waiting gathered.session ∨
        d ∈ Lowered.reports (Session.files gathered.session)) := by
  rw [run_eq] at h
  rcases Work.mem_trace_bind h with h | ⟨gathered, hfound, h⟩
  · cases phase_discover Engine.standard loader limit _ h
  · refine ⟨gathered, hfound, ?_⟩
    rcases Work.mem_trace_bind h with h | ⟨-, -, h⟩
    · exact .inl (mem_of_mem_pulled _ _ _ _ h)
    · exact mem_of_reported_runParsed h

/-- **Every place that is reported is in a file that was read.** -/
theorem exists_file_of_reported {l : Location}
    (h : .nextDiagnostic (some d) ∈
      (run Engine.standard loader sink stream limit config colorize).trace Event.call?)
    (hplace : d.location = some l) :
    ∃ known text, known ++ config.extension ∈
        (run Engine.standard loader sink stream limit config colorize).trace (Event.read? loader) ∧
      (loader (known ++ config.extension)).text? = some text ∧
      l.IsIn (ParsedFile.fileName known) text := by
  obtain ⟨gathered, hfound, hwaits⟩ := exists_gathered_of_reported h
  obtain ⟨hfromFiles, hfiles⟩ := session_of_discover hfound
  have hread_run : ∀ f ∈ Session.files gathered.session, f.path ++ config.extension ∈
      (run Engine.standard loader sink stream limit config colorize).trace (Event.read? loader) := by
    intro f hmember
    rw [run_eq, Work.trace_bind_of_ok _ hfound]
    exact List.mem_append_left _ (hfiles f hmember).2
  rcases hwaits with hwaiting | habout
  · obtain ⟨f, hmember, hmade⟩ := hfromFiles d hwaiting
    obtain ⟨text, hheld, hsame⟩ := (hfiles f hmember).1
    rw [hsame] at hmade
    exact ⟨f.path, text, hread_run f hmember, hheld, ParsedFile.isIn_of_mem_diagnostics hmade hplace⟩
  · obtain ⟨declaration, hdeclared, horigin⟩ := Linked.exists_declaration_of_mem_reports habout
    obtain ⟨f, hmember, hdeclared⟩ := List.mem_flatMap.mp hdeclared
    obtain ⟨text, hheld, hsame⟩ := (hfiles f hmember).1
    rw [hsame] at hdeclared
    obtain ⟨hwhole, hbody⟩ := ParsedFile.isIn_of_mem_functions hdeclared
    refine ⟨f.path, text, hread_run f hmember, hheld, ?_⟩
    rcases horigin with ⟨-, hlocation⟩ | ⟨-, hlocation⟩
    · obtain rfl := Option.some.inj (hplace.symm.trans hlocation)
      exact hwhole
    · obtain rfl := Option.some.inj (hplace.symm.trans hlocation)
      exact hbody

end Run

/-- **Diagnostics name the file that was read exactly if the extension is that of source files.**
Whatever the files, the configuration and the streams, every diagnostic with a place that a run reports
is about a file which the run asked for and found under its path and the configured extension. A line
that it shows is the line of its number in the text of that file. The name that it gives is always the
path with `.ts`, which is the name that was read with this extension and with no other. -/
theorem reported_path_is_read_iff (loader : Loader) (sink : Sink) (stream : ErrorStream) (limit : Nat)
    (config : Config) (colorize : Bool) {d : Diagnostic} {l : Location}
    (hreported : .nextDiagnostic (some d) ∈
      (run Engine.standard loader sink stream limit config colorize).trace Event.call?)
    (hplace : d.location = some l) :
    ∃ known text, known ++ config.extension ∈
        (run Engine.standard loader sink stream limit config colorize).trace (Event.read? loader) ∧
      loader (known ++ config.extension) = .text text ∧
      (∀ shown, l.lineText = some shown →
        ∃ i, l.line = i + 1 ∧ (Text.lines text.toList)[i]? = some shown.toList) ∧
      l.path = known ++ ".ts" ∧
      (l.path = known ++ config.extension ↔ config.extension = ".ts") := by
  obtain ⟨known, text, hread, hheld, hinside⟩ := exists_file_of_reported hreported hplace
  have hfound : loader (known ++ config.extension) = .text text := by
    unfold Reading.text? at hheld
    split at hheld
    · rename_i hsame
      rw [hsame, Option.some.inj hheld]
    · cases hheld
  refine ⟨known, text, hread, hfound, hinside.shows, hinside.path, ?_⟩
  rw [hinside.path, eq_comm]
  exact String.append_right_inj known

/-- A line that is no declaration, in a file of another extension. -/
def otherExtension : Loader :=
  .ofFiles [("main.as", "let x;\n")]

/-- What is reported about that line. -/
def otherExtensionReport : Diagnostic :=
  ⟨.error, "TS1128", "Declaration or statement expected.", some ⟨"main.ts", 1, 1, some "let x;"⟩⟩

/-- Only `main.as` is read, and the report on it is about `main.ts`. -/
theorem otherExtension_misnamed :
    .nextDiagnostic (some otherExtensionReport) ∈
        (run Engine.standard otherExtension (fun _ _ => none) ⟨none, .notFound, []⟩ 1
          ⟨"main", ".as", true, false, false, false, .none, ⟨none, none, none, none⟩⟩ false).trace
            Event.call? ∧
      (run Engine.standard otherExtension (fun _ _ => none) ⟨none, .notFound, []⟩ 1
        ⟨"main", ".as", true, false, false, false, .none, ⟨none, none, none, none⟩⟩ false).trace
          (Event.read? otherExtension) = ["main.as"] ∧
      otherExtensionReport.location.map Location.path = some "main.ts" := by
  refine ⟨by decide +kernel, by decide +kernel, rfl⟩

/-- A call of a function that is nowhere, in the index of an imported directory. -/
def lostCall : Loader :=
  .ofFiles [("main.ts", "import \"./lib\";\nexport function main(): i32 \x7b return one(); \x7d\n"),
    ("lib/index.ts", "// one\n\nexport function one(): i32 \x7b return two(); \x7d\n")]

/-- What is reported about that call, when all files have been put together. -/
def lostCallReport : Diagnostic :=
  ⟨.error, "TS2304", "Cannot find name 'two'.",
    some ⟨"lib/index.ts", 3, 37, some "export function one(): i32 \x7b return two(); \x7d"⟩⟩

theorem lostCall_named :
    .nextDiagnostic (some lostCallReport) ∈
        (run Engine.standard lostCall (fun _ _ => none) ⟨none, .notFound, []⟩ 2
          ⟨"main", ".ts", true, false, false, false, .none, ⟨none, none, none, none⟩⟩ false).trace
            Event.call? ∧
      "lib/index.ts" ∈
        (run Engine.standard lostCall (fun _ _ => none) ⟨none, .notFound, []⟩ 2
          ⟨"main", ".ts", true, false, false, false, .none, ⟨none, none, none, none⟩⟩ false).trace
            (Event.read? lostCall) ∧
      ∃ text, lostCall "lib/index.ts" = .text text ∧ (Text.lines text.toList)[2]? =
        some "export function one(): i32 \x7b return two(); \x7d".toList := by
  have hreported : .nextDiagnostic (some lostCallReport) ∈
      (run Engine.standard lostCall (fun _ _ => none) ⟨none, .notFound, []⟩ 2
        ⟨"main", ".ts", true, false, false, false, .none, ⟨none, none, none, none⟩⟩ false).trace
          Event.call? := by decide +kernel
  obtain ⟨known, text, hread, hheld, hshows, -, hnamed⟩ :=
    reported_path_is_read_iff _ _ _ _ _ _ hreported rfl
  have hpath : "lib/index.ts" = known ++ ".ts" := hnamed.mpr rfl
  obtain ⟨i, hnumber, hline⟩ := hshows _ rfl
  obtain rfl : 2 = i := Nat.succ.inj hnumber
  exact ⟨hreported, hpath ▸ hread, text, hpath ▸ hheld, hline⟩

end Wasmline
