import Wasmline.Proofs.Run.Discovery
import Wasmline.Proofs.Run.Finish

/-!
# The life of an artifact in a run

The calls of a run fall into phases: finding files, reporting what parsing had to say, and then, if
that went well, compiling, reporting again, using the artifact and releasing it (`calls_run`). All
that is to be known about the order of calls is read off this shape.

`gates` lists the places at which a run can fail, in order, each with the failure it would be.

`run_artifact_lifecycle` is the result: an artifact is compiled at most once and only from sources
that were all found and parsed without errors, it is released exactly once and last of all, it is used
only behind a second report without errors, and the failure of a run is that of its first gate that
fails.
-/

namespace Wasmline

/-- What a call of the engine is for. -/
inductive Phase where
  | discovery
  | report
  | compile
  | use
  | release
  deriving DecidableEq, Repr

/-- The phase that a call belongs to. -/
def Call.phase : Call → Phase
  | start _ | nextImport _ | supply _ => .discovery
  | nextDiagnostic _ => .report
  | compile _ => .compile
  | validate | runPasses _ | optimize | view _ => .use
  | dispose => .release

@[simp] theorem Call.phase_compile (options : CompileOptions) :
    (Call.compile options).phase = .compile := rfl

@[simp] theorem Call.phase_dispose : Call.dispose.phase = .release := rfl

section Run

variable (engine : Engine) (loader : Loader) (sink : Sink) (stream : ErrorStream) (limit : Nat)
  (config : Config) (colorize : Bool)

/-! ### The steps of a run -/

/-- The report on what was parsed. -/
def parseReport (session : engine.Session) : Drained :=
  drain (fun d => engine.format d colorize) stream (engine.waiting session)

/-- What compiling the parsed files gives. -/
def compilation (session : engine.Session) : engine.Artifact × engine.Session × List Note :=
  engine.compile (engine.keepWaiting session (parseReport engine stream colorize session).rest)
    config.options

/-- The report on what was compiled. -/
def compileReport (session : engine.Session) : Drained :=
  drain (fun d => engine.format d colorize) (parseReport engine stream colorize session).stream
    (engine.waiting (compilation engine stream config colorize session).2.1)

/-- A run behind its first report: compiling, and all that is done with the artifact. -/
def runParsed (gathered : Gathered engine) : Work Outcome := do
  Work.note .debug .staging ("Compiling with " ++ config.options.describe)
  let compiled := compilation engine stream config colorize gathered.session
  Work.emit (.call (.compile config.options) :: compiled.2.2.map .note)
  let report := compileReport engine stream config colorize gathered.session
  finish engine sink config compiled.1 report
  Work.note .info .driving s!"Compiled {gathered.files.length} file(s) from {config.entry}"
  return ⟨gathered.files, config.outputs.plan,
    (parseReport engine stream colorize gathered.session).tally.warnings + report.tally.warnings⟩

/-- A run is its files, its first report and what is behind that. -/
theorem run_eq :
    run engine loader sink stream limit config colorize = (do
      let gathered ← discover engine loader config.extension config.entry limit
      (parseReport engine stream colorize gathered.session).gate .parsing
      runParsed engine sink stream config colorize gathered) :=
  rfl

/-- Every file was found, the error stream took the report on them, and there was no error in it. -/
def ParsesClean : Prop :=
  ∃ gathered, (discover engine loader config.extension config.entry limit).result = .ok gathered ∧
    (parseReport engine stream colorize gathered.session).failure = none ∧
    ∀ d ∈ engine.waiting gathered.session, d.isError = false

/-- The places at which a run can fail behind finding its files, in order: the two reports with
compiling between them, validation, each view of the plan, each write of the plan. -/
def gatesBehind (session : engine.Session) : List (Option Halt) :=
  reportGates .parsing (engine.waiting session) (parseReport engine stream colorize session) ++
    (reportGates .compiling
        (engine.waiting (compilation engine stream config colorize session).2.1)
        (compileReport engine stream config colorize session) ++
      useGates engine sink config (compilation engine stream config colorize session).1)

/-- The places at which a run can fail, in order, and how it fails at each if it does. -/
def gates : List (Option Halt) :=
  match (discover engine loader config.extension config.entry limit).result with
  | .error halt => [some halt]
  | .ok gathered => gatesBehind engine sink stream config colorize gathered.session

/-! ### Failing at the first gate -/

/-- **A run fails at its first gate that fails.** -/
theorem halt?_run :
    (run engine loader sink stream limit config colorize).halt? =
      (gates engine loader sink stream limit config colorize).findSome? id := by
  rw [run_eq, gates]
  cases hfound : (discover engine loader config.extension config.entry limit).result with
  | error halt =>
      rw [Work.bind_of_error hfound]
      rfl
  | ok gathered =>
      rw [Work.halt?_bind_of_ok hfound]
      refine Work.halt?_bind (halt?_gate_drain _ _ _ _) fun _ _ => ?_
      rw [runParsed, Work.halt?_note_bind, Work.halt?_emit_bind,
        ← List.append_nil (_ ++ useGates _ _ _ _)]
      exact Work.halt?_bind (halt?_finish _ _ _ _ _ (halt?_gate_drain _ _ _ _)) fun _ _ => rfl

/-! ### The shape of the calls -/

/-- Answering imports is discovery. -/
theorem phase_gather {extension : String} : (limit : Nat) → (g : Gathered engine) →
    ∀ c ∈ (gather engine loader extension limit g).trace Event.call?, c.phase = .discovery
  | 0, _, _, hc => nomatch hc
  | limit + 1, ⟨s, files⟩, c, hc => by
      unfold gather at hc
      rcases hnext : engine.nextImport s with ⟨_ | path, s'⟩
      · simp only [hnext, Work.trace_emit_bind] at hc
        rw [List.mem_singleton.mp hc]
        rfl
      · simp only [hnext, Work.trace_emit_bind] at hc
        rcases List.mem_append.mp hc with hc | hc
        · rw [List.mem_singleton.mp hc]
          rfl
        · rcases Work.mem_trace_bind hc with hc | ⟨file, -, hc⟩
          · rw [calls_resolve] at hc
            exact absurd hc List.not_mem_nil
          · rw [Work.calls_note_bind, Work.trace_emit_bind] at hc
            rcases List.mem_append.mp hc with hc | hc
            · rw [Work.calls_call_notes] at hc
              rw [List.mem_singleton.mp hc]
              rfl
            · exact phase_gather limit _ c hc

/-- Finding files makes no other calls than those of discovery, whether or not all are found. -/
theorem phase_discover {extension entry : String} :
    ∀ c ∈ (discover engine loader extension entry limit).trace Event.call?,
      c.phase = .discovery := by
  intro c hc
  unfold discover at hc
  rcases Work.mem_trace_bind hc with hc | ⟨file, -, hc⟩
  · rw [calls_resolve] at hc
    exact nomatch hc
  · rw [Work.calls_note_bind, Work.trace_emit_bind] at hc
    rcases List.mem_append.mp hc with hc | hc
    · rw [Work.calls_call_notes] at hc
      rw [List.mem_singleton.mp hc]
      rfl
    · rcases Work.mem_trace_bind hc with hc | ⟨gathered, -, hc⟩
      · exact phase_gather engine loader limit _ c hc
      · exact nomatch hc

/-- Reporting makes no other calls than those for diagnostics. -/
theorem phase_drain {format : Diagnostic → String} {stream : ErrorStream}
    {queue : List Diagnostic} :
    ∀ c ∈ (drain format stream queue).events.filterMap Event.call?, c.phase = .report := by
  intro c hc
  obtain ⟨d, rfl⟩ := calls_drainFrom format stream .zero queue c hc
  rfl

/-- What a configuration does with an artifact is to use it. -/
theorem phase_useCalls : ∀ c ∈ config.useCalls, c.phase = .use := by
  intro c hc
  simp only [Config.useCalls, Config.stageCalls, List.mem_append, Option.mem_toList,
    Option.map_eq_some_iff, List.mem_map] at hc
  rcases hc with ((hc | ⟨pass, -, rfl⟩) | hc) | ⟨emission, -, rfl⟩
  · split at hc
    · rw [List.mem_singleton.mp hc]
      rfl
    · exact absurd hc List.not_mem_nil
  · rfl
  · split at hc
    · rw [List.mem_singleton.mp hc]
      rfl
    · exact absurd hc List.not_mem_nil
  · rfl

/-- The calls are those of a whole life of an artifact behind the calls of `front`: it is compiled,
reported on, used if all of the report was pulled and no error was in it, and released. -/
structure Life (front pulled used calls : List Call) : Prop where
  shape : calls = front ++ .compile config.options :: pulled ++ (used ++ [.dispose])
  phase_front : ∀ c ∈ front, c.phase = .discovery ∨ c.phase = .report
  phase_pulled : ∀ c ∈ pulled, c.phase = .report
  used_prefix : used <+: config.useCalls
  clean : used ≠ [] → ∃ queue, pulled = pullCalls queue ∧ ∀ d ∈ queue, d.isError = false

/-- Behind the first report there is the whole life of an artifact. -/
theorem life_runParsed (gathered : Gathered engine) :
    ∃ pulled used, Life config [] pulled used
      ((runParsed engine sink stream config colorize gathered).trace Event.call?) := by
  obtain ⟨used, hcalls, hsteps, hbehind⟩ := calls_useArtifact engine sink config
    (compilation engine stream config colorize gathered.session).1
    (compileReport engine stream config colorize gathered.session)
  refine ⟨(compileReport engine stream config colorize gathered.session).events.filterMap Event.call?,
    used, ?_, List.forall_mem_nil _, phase_drain, hsteps, ?_⟩
  · rw [runParsed, Work.calls_note_bind, Work.trace_emit_bind, Work.trace_bind_of_silent,
      calls_finish, hcalls]
    · simp
    · intro _
      rfl
  · intro hsome
    have hcompiled := (gate_drain_eq_ok_iff _ _ _ _).mp (hbehind hsome)
    exact ⟨_, calls_drain_of_success _ _ _ hcompiled.1, hcompiled.2⟩

/-- The calls of a run: discovery and a report, and behind them, if all is clean, the whole life of
an artifact. -/
theorem calls_run :
    ∃ front, (∀ c ∈ front, c.phase = .discovery ∨ c.phase = .report) ∧
      ((¬ ParsesClean engine loader stream limit config colorize ∧
        (run engine loader sink stream limit config colorize).trace Event.call? = front) ∨
      (ParsesClean engine loader stream limit config colorize ∧
        ∃ pulled used, Life config front pulled used
          ((run engine loader sink stream limit config colorize).trace Event.call?))) := by
  rw [run_eq, ParsesClean]
  have hphase_found : ∀ c ∈ (discover engine loader config.extension config.entry limit).trace
      Event.call?, c.phase = .discovery ∨ c.phase = .report :=
    fun c hc => .inl (phase_discover engine loader limit c hc)
  cases hfound : (discover engine loader config.extension config.entry limit).result with
  | error halt =>
      refine ⟨_, hphase_found, .inl ⟨?_, Work.trace_bind_of_error _ hfound _⟩⟩
      rintro ⟨gathered, hok, -⟩
      exact nomatch hok
  | ok gathered =>
      have hphase_parsed : ∀ c ∈ (parseReport engine stream colorize gathered.session).events.filterMap
          Event.call?, c.phase = .discovery ∨ c.phase = .report :=
        fun c hc => .inr (phase_drain c hc)
      have hphase_front := List.forall_mem_append.mpr ⟨hphase_found, hphase_parsed⟩
      refine ⟨_, hphase_front, ?_⟩
      rw [Work.trace_bind_of_ok _ hfound]
      have hpasses := gate_drain_eq_ok_iff (fun d => engine.format d colorize) stream
        (engine.waiting gathered.session) .parsing
      cases hparsed : ((parseReport engine stream colorize gathered.session).gate .parsing).result with
      | error halt =>
          refine .inl ⟨?_, ?_⟩
          · rintro ⟨_, hok, hclean⟩
            obtain rfl := Except.ok.inj hok
            exact nomatch hparsed.symm.trans (hpasses.mpr hclean)
          · rw [Work.trace_bind_of_error _ hparsed]
            rfl
      | ok =>
          obtain ⟨pulled, used, hlife⟩ := life_runParsed engine sink stream config colorize gathered
          refine .inr ⟨⟨gathered, rfl, hpasses.mp hparsed⟩, pulled, used, ?_, hphase_front,
            hlife.phase_pulled, hlife.used_prefix, hlife.clean⟩
          rw [Work.trace_bind_of_ok _ hparsed, hlife.shape, List.nil_append, List.append_assoc,
            List.append_assoc]
          rfl

/-! ### Reading the order off the shape -/

/-- What does not stand in front stands behind. -/
theorem exists_append_of_notMem {α : Type} {front back before after : List α} {a : α}
    (h : a ∉ front) (hsame : front ++ back = before ++ a :: after) :
    ∃ between, before = front ++ between ∧ back = between ++ a :: after := by
  rcases List.append_eq_append_iff.mp hsame with ⟨between, rfl, rfl⟩ | ⟨rest, rfl, hsplit⟩
  · exact ⟨between, rfl, rfl⟩
  · rcases rest with _ | ⟨b, rest⟩
    · exact ⟨[], by simp, by simpa using hsplit.symm⟩
    · obtain ⟨rfl, -⟩ := List.cons.inj hsplit
      exact absurd (List.mem_append_right _ List.mem_cons_self) h

/-- Calls of other phases do not count. -/
theorem countP_phase_eq_zero {calls : List Call} {phase : Phase}
    (h : ∀ c ∈ calls, c.phase ≠ phase) : (calls.countP fun c => c.phase = phase) = 0 := by
  rw [List.countP_eq_zero]
  exact fun c hc hsame => h c hc (of_decide_eq_true hsame)

namespace Life

variable {config} {front pulled used calls : List Call}

/-- What is done with the artifact is to use it. -/
theorem phase_used (hlife : Life config front pulled used calls) : ∀ c ∈ used, c.phase = .use :=
  fun c hc => phase_useCalls config c (hlife.used_prefix.subset hc)

/-- An artifact is compiled once and released once. -/
theorem countP_eq_one (hlife : Life config front pulled used calls) {phase : Phase}
    (h : phase = .compile ∨ phase = .release) : (calls.countP fun c => c.phase = phase) = 1 := by
  have hin_front : (front.countP fun c => c.phase = phase) = 0 := by
    refine countP_phase_eq_zero fun c hc => ?_
    rcases hlife.phase_front c hc with hc | hc <;> rcases h with rfl | rfl <;> simp [hc]
  have hin_pulled : (pulled.countP fun c => c.phase = phase) = 0 := by
    refine countP_phase_eq_zero fun c hc => ?_
    rcases h with rfl | rfl <;> simp [hlife.phase_pulled c hc]
  have hin_used : (used.countP fun c => c.phase = phase) = 0 := by
    refine countP_phase_eq_zero fun c hc => ?_
    rcases h with rfl | rfl <;> simp [hlife.phase_used c hc]
  rw [hlife.shape]
  simp only [List.countP_append, List.countP_cons, List.countP_nil, hin_front, hin_pulled, hin_used]
  rcases h with rfl | rfl <;> rfl

/-- Nothing comes behind the release. -/
theorem eq_nil_of_release (hlife : Life config front pulled used calls) {before after : List Call}
    (hsplit : calls = before ++ .dispose :: after) : after = [] := by
  have hunreleased : .dispose ∉ front ++ .compile config.options :: pulled ++ used := by
    intro hreleased
    simp only [List.mem_append, List.mem_cons, reduceCtorEq, false_or] at hreleased
    rcases hreleased with (hc | hc) | hc
    · exact (hlife.phase_front _ hc).elim (nomatch ·) (nomatch ·)
    · exact nomatch hlife.phase_pulled _ hc
    · exact nomatch hlife.phase_used _ hc
  rw [hlife.shape, ← List.append_assoc] at hsplit
  obtain ⟨between, -, hlast⟩ := exists_append_of_notMem hunreleased hsplit
  rcases between with _ | ⟨_, _⟩
  · exact (List.cons.inj hlast).2.symm
  · simp at hlast

/-- The artifact is used behind a report that was pulled whole and had no error in it. -/
theorem exists_report_of_use (hlife : Life config front pulled used calls)
    {before after : List Call} {c : Call} (hsplit : calls = before ++ c :: after)
    (huse : c.phase = .use) :
    ∃ found queue done, before = found ++ .compile config.options :: pullCalls queue ++ done ∧
      (∀ d ∈ queue, d.isError = false) ∧ ∀ u ∈ done, u.phase = .use := by
  have hbehind : c ∉ front ++ .compile config.options :: pulled := by
    intro hearlier
    rcases List.mem_append.mp hearlier with hc | hc
    · rcases hlife.phase_front c hc with hc | hc <;> exact nomatch huse.symm.trans hc
    · rcases List.mem_cons.mp hc with rfl | hc
      · exact nomatch huse
      · exact nomatch huse.symm.trans (hlife.phase_pulled c hc)
  rw [hlife.shape] at hsplit
  obtain ⟨between, rfl, hrest⟩ := exists_append_of_notMem hbehind hsplit
  -- what comes before a use and behind the report is use as well: the release is the very last call
  have hshort : between <+: used := by
    rcases List.prefix_concat_iff.mp ⟨_, hrest.symm⟩ with hwhole | hshort
    · rw [hwhole] at hrest
      exact absurd (congrArg List.length hrest) (by simp)
    · exact hshort
  have hsome : used ≠ [] := by
    rintro rfl
    obtain rfl := List.prefix_nil.mp hshort
    obtain ⟨rfl, -⟩ := List.cons.inj hrest
    exact nomatch huse
  obtain ⟨queue, rfl, hclean⟩ := hlife.clean hsome
  exact ⟨front, queue, between, rfl, hclean, fun u hu => hlife.phase_used u (hshort.subset hu)⟩

/-- The uses are those of the configuration, as far as the run got. -/
theorem filter_use (hlife : Life config front pulled used calls) :
    (calls.filter fun c => c.phase = .use) <+: config.useCalls := by
  have hin_front : (front.filter fun c => c.phase = .use) = [] := by
    refine List.filter_eq_nil_iff.mpr fun c hc => ?_
    rcases hlife.phase_front c hc with hc | hc <;> simp [hc]
  have hin_pulled : (pulled.filter fun c => c.phase = .use) = [] := by
    refine List.filter_eq_nil_iff.mpr fun c hc => ?_
    simp [hlife.phase_pulled c hc]
  have hin_used : (used.filter fun c => c.phase = .use) = used := by
    refine List.filter_eq_self.mpr fun c hc => ?_
    simp [hlife.phase_used c hc]
  rw [hlife.shape]
  simpa [List.filter_cons, hin_front, hin_pulled, hin_used] using hlife.used_prefix

end Life

end Run

/-- **The life of an artifact and the order of gates.** Whatever the engine, the files, the sink and
the error stream do, a run

* compiles at most once, and compiles exactly if every file was found and the first report was taken
  whole and had no error in it;
* releases the artifact exactly once if it compiled and never otherwise, as the last of its calls;
* uses the artifact only behind a report on it that was taken whole and had no error in it;
* uses it in the order validation, passes, optimization, views, as far as the configuration asks for
  them and nothing fails;
* fails as its first gate that fails does, and comes to a result if none does. -/
theorem run_artifact_lifecycle (engine : Engine) (loader : Loader) (sink : Sink)
    (stream : ErrorStream) (limit : Nat) (config : Config) (colorize : Bool) :
    let work := run engine loader sink stream limit config colorize
    let calls := work.trace Event.call?
    (calls.countP fun c => c.phase = .compile) ≤ 1 ∧
      ((∃ c ∈ calls, c.phase = .compile) ↔
        ParsesClean engine loader stream limit config colorize) ∧
      (calls.countP fun c => c.phase = .release) = (calls.countP fun c => c.phase = .compile) ∧
      (∀ before after, calls = before ++ .dispose :: after → after = []) ∧
      (∀ before c after, calls = before ++ c :: after → c.phase = .use →
        ∃ found queue used, before = found ++ .compile config.options :: pullCalls queue ++ used ∧
          (∀ d ∈ queue, d.isError = false) ∧ ∀ u ∈ used, u.phase = .use) ∧
      (calls.filter fun c => c.phase = .use) <+: config.useCalls ∧
      work.halt? = (gates engine loader sink stream limit config colorize).findSome? id := by
  intro work calls
  have hhalts := halt?_run engine loader sink stream limit config colorize
  obtain ⟨front, hphase_front, ⟨hunclean, hsame⟩ | ⟨hclean, pulled, used, hlife⟩⟩ :=
    calls_run engine loader sink stream limit config colorize
  · -- without a clean report there is nothing but discovery and reporting
    have hother : ∀ c ∈ calls, c.phase ≠ .compile ∧ c.phase ≠ .release ∧ c.phase ≠ .use := by
      intro c hc
      rcases hphase_front c (hsame ▸ hc) with h | h <;> simp [h]
    have hcompiles := countP_phase_eq_zero fun c hc => (hother c hc).1
    have hreleases := countP_phase_eq_zero fun c hc => (hother c hc).2.1
    refine ⟨by omega, ⟨?_, fun hclean => absurd hclean hunclean⟩, by omega, ?_, ?_, ?_, hhalts⟩
    · rintro ⟨c, hc, hcompile⟩
      exact absurd hcompile (hother c hc).1
    · intro before after hsplit
      exact absurd rfl (hother .dispose (by simp [hsplit])).2.1
    · intro before c after hsplit huse
      exact absurd huse (hother c (by simp [hsplit])).2.2
    · have hunused : (calls.filter fun c => c.phase = .use) = [] :=
        List.filter_eq_nil_iff.mpr fun c hc => by simp [(hother c hc).2.2]
      rw [hunused]
      exact List.nil_prefix
  · have hcompiles := hlife.countP_eq_one (.inl rfl)
    have hreleases := hlife.countP_eq_one (.inr rfl)
    refine ⟨Nat.le_of_eq hcompiles, ⟨fun _ => hclean, fun _ => ?_⟩, hreleases.trans hcompiles.symm,
      fun _ _ => hlife.eq_nil_of_release, fun _ _ _ => hlife.exists_report_of_use, hlife.filter_use,
      hhalts⟩
    exact ⟨.compile config.options, by simp [calls, work, hlife.shape], rfl⟩

/-- A run whose only write fails has used its artifact in every way, and releases it all the same. -/
example :
    (run Engine.standard (.ofFiles [("main.ts", "export function main(): i32 { return 1; }\n")])
      (fun _ _ => some (.other "broken pipe")) ⟨none, .notFound, []⟩ 1
      ⟨"main", ".ts", true, true, true, true, .clamp, ⟨none, none, none, none⟩⟩ false).trace
        Event.call? =
      [.start ⟨"main", "export function main(): i32 { return 1; }\n", .entry⟩, .nextImport none,
        .nextDiagnostic none, .compile ⟨true, true⟩, .nextDiagnostic none, .validate,
        .runPasses ["trap-mode-clamp"], .optimize, .view .text, .dispose] := by
  decide +kernel

end Wasmline
