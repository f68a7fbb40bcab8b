import Wasmline.Proofs.Output.Plan
import Wasmline.Proofs.Run.Lifecycle

/-!
# What a run writes

Outputs are written by one step only, at the very end of the work on an artifact. Every other step
writes nothing (`writes_discover`, `writes_drainFrom`, `writes_runStages`, `writes_produce`), and can
only keep the writes from being reached.

`WritesBehind` says both of a piece of work: a list of gates of which the first that fails stops it
with nothing written, and the outputs that the sink is given one after the other if none of them
fails. It is put together along the steps of a run (`WritesBehind.bind`), and `run_writes_plan_prefix`
reads the result off it: what a run writes is the beginning of its plan, whole exactly if the run came
to a result, and empty unless it was the sink that refused an output.
-/

namespace Wasmline

/-! ### Steps that write nothing -/

@[simp] theorem Event.write?_note (n : Note) : Event.write? (.note n) = none := rfl

@[simp] theorem Event.write?_call (c : Call) : Event.write? (.call c) = none := rfl

@[simp] theorem writes_notes (notes : List Note) :
    notes.filterMap (Event.write? ∘ Event.note) = [] :=
  Work.filterMap_comp_note Event.write?_note notes

@[simp] theorem writes_note_bind {α : Type} (level : Level) (scope : Scope) (text : String)
    (next : Unit → Work α) :
    (Work.note level scope text >>= next).trace Event.write? = (next ()).trace Event.write? :=
  Work.trace_note_bind Event.write?_note level scope text next

/-- Steps that write nothing come to work that writes nothing. -/
theorem writes_bind_eq_nil {α β : Type} {work : Work α} {next : α → Work β}
    (hfirst : work.trace Event.write? = []) (hrest : ∀ a, (next a).trace Event.write? = []) :
    (work >>= next).trace Event.write? = [] := by
  rw [Work.trace_bind_of_silent hrest, hfirst]

theorem writes_tryFile (loader : Loader) (file : String) :
    (tryFile loader file).trace Event.write? = [] := by
  unfold tryFile
  cases loader file <;> rfl

theorem writes_resolve (loader : Loader) (extension path : String) (origin : Origin) :
    (resolve loader extension path origin).trace Event.write? = [] := by
  unfold resolve
  apply writes_bind_eq_nil (writes_tryFile _ _)
  rintro (_ | text)
  · apply writes_bind_eq_nil (writes_tryFile _ _)
    rintro (_ | text) <;> rfl
  · rfl

section Quiet

variable (engine : Engine) (loader : Loader) (extension : String)

theorem writes_gather : (limit : Nat) → (g : Gathered engine) →
    (gather engine loader extension limit g).trace Event.write? = []
  | 0, _ => rfl
  | limit + 1, ⟨s, files⟩ => by
      unfold gather
      rcases engine.nextImport s with ⟨_ | path, s'⟩
      · rfl
      · rw [Work.trace_emit_bind]
        apply writes_bind_eq_nil (writes_resolve _ _ _ _)
        intro file
        rw [writes_note_bind, Work.trace_emit_bind, writes_gather limit]
        simp

theorem writes_discover (entry : String) (limit : Nat) :
    (discover engine loader extension entry limit).trace Event.write? = [] := by
  unfold discover
  apply writes_bind_eq_nil (writes_resolve _ _ _ _)
  intro file
  rw [writes_note_bind, Work.trace_emit_bind,
    writes_bind_eq_nil (writes_gather engine loader extension limit _) fun _ => rfl]
  simp

theorem writes_drainFrom (format : Diagnostic → String) : (stream : ErrorStream) →
    (tally : Tally) → (queue : List Diagnostic) →
      (drainFrom format stream tally queue).events.filterMap Event.write? = []
  | _, _, [] => by
      rw [drainFrom, List.filterMap_cons_none (Event.write?_call _), List.filterMap_map, writes_notes]
  | stream, tally, d :: ds => by
      by_cases hfits : stream.fits (reportBytes format d) = true
      · rw [drainFrom_cons_of_fits format hfits]
        exact writes_drainFrom format _ _ ds
      · rw [drainFrom_cons_of_not_fits format hfits]
        rfl

theorem writes_applyStage (artifact : engine.Artifact) (stage : Stage) :
    (applyStage engine artifact stage).events.filterMap Event.write? = [] := by
  cases stage with
  | validate => simp [applyStage]
  | trapMode mode => cases hpass : mode.passName? <;> simp [applyStage, hpass]
  | optimize => simp [applyStage]

theorem writes_runStages : (artifact : engine.Artifact) → (stages : List PlannedStage) →
    (runStages engine artifact stages).events.filterMap Event.write? = []
  | _, [] => rfl
  | artifact, planned :: rest => by
      unfold runStages
      have hbegun := writes_applyStage engine artifact planned.stage
      have hlast := writes_runStages (applyStage engine artifact planned.stage).artifact rest
      split
      · dsimp only
        split <;>
          simp only [List.filterMap_cons, Event.write?_note, List.filterMap_append, hbegun, hlast,
            List.append_nil]
      · exact writes_runStages artifact rest

theorem writes_produce (artifact : engine.Artifact) : (plan : List Emission) →
    (produce engine artifact plan).trace Event.write? = []
  | [] => rfl
  | emission :: rest => by
      cases hview : engine.view artifact emission.format with
      | error failure =>
          rw [produce_cons_of_error engine artifact hview]
          rfl
      | ok bytes =>
          rw [produce_cons_of_ok engine artifact hview, Work.trace_emit_bind,
            writes_bind_eq_nil (writes_produce artifact rest) fun _ => rfl]
          rfl

@[simp] theorem writes_disposal (artifact : engine.Artifact) :
    (disposal engine artifact).filterMap Event.write? = [] := by
  simp [disposal]

end Quiet

/-- Releasing something without writing does not show among the writes. -/
theorem writes_releasing {A α : Type} {release : A → List Event}
    (hquiet : ∀ a, (release a).filterMap Event.write? = []) (use : Owning A α) (a : A) :
    (Owning.releasing release use a).trace Event.write? = (use a).1.trace Event.write? := by
  rw [Owning.trace_releasing, hquiet, List.append_nil]

/-! ### Writing up to the first refusal -/

/-- Where writing these outputs behind `written` ended: with all of them, or with the sink refusing the
one behind those that were written. -/
def WrittenUpTo (sink : Sink) (written planned writes : List Write) : Option Halt → Prop
  | none => writes = planned
  | some halt => ∃ write rest cause, planned = writes ++ write :: rest ∧
      sink (written ++ writes) write = some cause ∧ halt = .failure (.io cause)

theorem WrittenUpTo.prefix {sink : Sink} {written planned writes : List Write} :
    {halt? : Option Halt} → WrittenUpTo sink written planned writes halt? → writes <+: planned
  | none, hall => hall ▸ List.prefix_rfl
  | some _, ⟨write, rest, _, hsplit, _, _⟩ => ⟨write :: rest, hsplit.symm⟩

section Planned

/-! Where each of these emissions comes to an output, what was written is seen on the emissions. -/

variable {sink : Sink} {emissions : List Emission} {output? : Emission → Option Write}
  {planned writes : List Write} (hmade : emissions.map output? = planned.map some)
include hmade

theorem WrittenUpTo.map_some {halt? : Option Halt}
    (h : WrittenUpTo sink [] planned writes halt?) :
    writes.map some = (emissions.take writes.length).map output? := by
  rw [List.map_take, hmade, ← List.map_take, ← List.prefix_iff_eq_take.mp h.prefix]

theorem WrittenUpTo.length_eq_iff {halt? : Option Halt}
    (h : WrittenUpTo sink [] planned writes halt?) :
    writes.length = emissions.length ↔ halt? = none := by
  have hsame : emissions.length = planned.length := by
    simpa using congrArg List.length hmade
  cases halt? with
  | none => exact iff_of_true (hsame ▸ congrArg List.length h) rfl
  | some halt =>
      obtain ⟨write, rest, cause, hsplit, -, -⟩ := h
      have hshort : writes.length < emissions.length := by
        rw [hsame, hsplit, List.length_append, List.length_cons]
        omega
      exact iff_of_false (Nat.ne_of_lt hshort) nofun

/-- The emission that was refused stands right behind those that were written. -/
theorem WrittenUpTo.exists_refused {halt : Halt}
    (h : WrittenUpTo sink [] planned writes (some halt)) :
    ∃ emission write cause, emissions[writes.length]? = some emission ∧
      output? emission = some write ∧ sink writes write = some cause ∧
      halt = .failure (.io cause) := by
  obtain ⟨write, rest, cause, hsplit, hrefused, hsame⟩ := h
  have hnext : (emissions.map output?)[writes.length]? = some (some write) := by
    rw [hmade, hsplit]
    simp
  rw [List.getElem?_map, Option.map_eq_some_iff] at hnext
  obtain ⟨emission, hthere, houtput⟩ := hnext
  exact ⟨emission, write, cause, hthere, houtput, hrefused, hsame⟩

end Planned

/-- Outputs are written one by one up to the first that the sink refuses. -/
theorem writtenUpTo_writeAll (sink : Sink) : (written : List Write) →
    (produced : List (Emission × Write)) →
      WrittenUpTo sink written (produced.map Prod.snd)
        ((writeAll sink written produced).trace Event.write?) (writeAll sink written produced).halt?
  | _, [] => rfl
  | written, (emission, write) :: rest => by
      unfold writeAll
      rw [Work.trace_emit_bind, Work.halt?_emit_bind, List.filterMap_cons_none rfl,
        List.filterMap_nil, List.nil_append]
      cases hrefused : sink written write with
      | some cause =>
          refine ⟨write, rest.map Prod.snd, cause, rfl, ?_, rfl⟩
          simpa [Work.fail, Work.trace] using hrefused
      | none =>
          rw [Work.trace_emit_bind, Work.halt?_emit_bind]
          have hbehind := writtenUpTo_writeAll sink (written ++ [write]) rest
          cases hended : (writeAll sink (written ++ [write]) rest).halt? with
          | none =>
              rw [hended] at hbehind
              have hall : (writeAll sink (written ++ [write]) rest).trace Event.write? =
                rest.map Prod.snd := hbehind
              simp [WrittenUpTo, hall, Event.write?]
          | some halt =>
              rw [hended] at hbehind
              obtain ⟨next, others, cause, hsplit, hrefused, hsame⟩ := hbehind
              refine ⟨next, others, cause, ?_, ?_, hsame⟩
              · simp [hsplit, Event.write?]
              · simpa [Event.write?] using hrefused

/-! ### Writing behind gates -/

/-- The first of these gates that fails stops the work with nothing written. If none of them does, the
sink is given the planned outputs one after the other until it refuses one. -/
structure WritesBehind {α : Type} (sink : Sink) (gates : List (Option Halt)) (planned : List Write)
    (work : Work α) : Prop where
  held : ∀ halt, gates.findSome? id = some halt →
    work.halt? = some halt ∧ work.trace Event.write? = []
  passed : gates.findSome? id = none →
    WrittenUpTo sink [] planned (work.trace Event.write?) work.halt?

namespace WritesBehind

variable {α β : Type} {sink : Sink} {gates gates' : List (Option Halt)} {planned : List Write}

/-- A step that came to a result without writing does not bear on the writes. -/
theorem after {work : Work α} {next : α → Work β} {a : α} (hresult : work.result = .ok a)
    (hquiet : work.trace Event.write? = []) (h : WritesBehind sink gates planned (next a)) :
    WritesBehind sink gates planned (work >>= next) := by
  have hhalts := Work.halt?_bind_of_ok hresult next
  have hwrites := Work.trace_bind_of_ok Event.write? hresult next
  rw [hquiet, List.nil_append] at hwrites
  constructor
  · rw [hhalts, hwrites]
    exact h.held
  · rw [hhalts, hwrites]
    exact h.passed

/-- Work that stopped short without writing is held by the gate at which it stopped. -/
theorem of_halt {work : Work α} {halt : Halt} (hstopped : work.halt? = some halt)
    (hfailed : gates.findSome? id = some halt) (hquiet : work.trace Event.write? = []) :
    WritesBehind sink gates planned work := by
  constructor
  · intro first hfirst
    rw [hstopped, ← hfailed, hfirst]
    exact ⟨rfl, hquiet⟩
  · intro hfine
    exact nomatch hfailed.symm.trans hfine

/-- A step that writes nothing puts its gates in front. -/
theorem bind {work : Work α} {next : α → Work β} (hquiet : work.trace Event.write? = [])
    (h : work.halt? = gates.findSome? id)
    (h' : ∀ a, work.result = .ok a → WritesBehind sink gates' planned (next a)) :
    WritesBehind sink (gates ++ gates') planned (work >>= next) := by
  have hfirst : (gates ++ gates').findSome? id = work.halt?.or (gates'.findSome? id) := by
    rw [List.findSome?_append, h]
  cases hresult : work.result with
  | error halt =>
      rw [Work.bind_of_error hresult]
      rw [Work.halt?_of_error hresult] at hfirst
      exact of_halt rfl hfirst hquiet
  | ok a =>
      rw [Work.halt?_of_ok hresult, Option.none_or] at hfirst
      obtain ⟨hheld, hpassed⟩ := h' a hresult
      refine after hresult hquiet ⟨?_, ?_⟩
      · rwa [hfirst]
      · rwa [hfirst]

/-- What follows the writes without stopping or writing does not bear on them. -/
theorem andThen {work : Work α} {next : α → Work β} (h : WritesBehind sink gates planned work)
    (hfine : ∀ a, (next a).halt? = none) (hquiet : ∀ a, (next a).trace Event.write? = []) :
    WritesBehind sink gates planned (work >>= next) := by
  have hwrites : (work >>= next).trace Event.write? = work.trace Event.write? :=
    Work.trace_bind_of_silent hquiet
  have hhalts : (work >>= next).halt? = work.halt? := by
    cases hresult : work.result with
    | ok a => rw [Work.halt?_bind_of_ok hresult, Work.halt?_of_ok hresult, hfine]
    | error halt =>
        rw [Work.halt?_of_error hresult, Work.bind_of_error hresult]
        rfl
  constructor
  · rw [hhalts, hwrites]
    exact h.held
  · rw [hhalts, hwrites]
    exact h.passed

theorem releasing {A : Type} {release : A → List Event} {use : Owning A α} {a : A}
    (h : WritesBehind sink gates planned (use a).1)
    (hquiet : ∀ a, (release a).filterMap Event.write? = []) :
    WritesBehind sink gates planned (Owning.releasing release use a) := by
  constructor
  · rw [Owning.halt?_releasing, writes_releasing hquiet]
    exact h.held
  · rw [Owning.halt?_releasing, writes_releasing hquiet]
    exact h.passed

end WritesBehind

/-! ### Along the steps of a run -/

section Steps

variable (engine : Engine) (loader : Loader) (sink : Sink) (stream : ErrorStream) (limit : Nat)
  (config : Config) (colorize : Bool)

/-- Outputs are written behind all of their views. -/
theorem writesBehind_output (outputs : Outputs) (artifact : engine.Artifact) :
    WritesBehind sink (outputs.plan.map (viewGate engine artifact))
      (outputs.plan.filterMap (viewWrite? engine artifact))
      (output engine sink outputs artifact) := by
  unfold output
  have hplanned : (Work.emit (outputs.planNotes.map .note)).trace Event.write? = [] := by
    simp [Work.emit, Work.trace]
  apply WritesBehind.after rfl hplanned
  rw [← List.append_nil (outputs.plan.map _)]
  apply WritesBehind.bind (writes_produce engine artifact _) (halt?_produce engine artifact _)
  intro produced hmade
  have hall := produce_eq_ok engine artifact outputs.plan hmade
  constructor
  · intro halt himpossible
    exact absurd himpossible.symm (Option.some_ne_none halt)
  · intro _
    rw [← hall]
    exact writtenUpTo_writeAll sink [] produced

/-- The gates in front of the writes in the work on an artifact: validation and each view. -/
def useGatesBeforeWriting (artifact : engine.Artifact) : List (Option Halt) :=
  [stageGate engine config artifact] ++
    config.outputs.plan.map (viewGate engine (staged engine config artifact))

/-- Outputs are written behind the report on the artifact, its validation and all of its views. -/
theorem writesBehind_finish (artifact : engine.Artifact) (format : Diagnostic → String)
    (queue : List Diagnostic) :
    WritesBehind sink
      (reportGates .compiling queue (drain format stream queue) ++
        useGatesBeforeWriting engine config artifact)
      (config.outputs.plan.filterMap (viewWrite? engine (staged engine config artifact)))
      (finish engine sink config artifact (drain format stream queue)) := by
  refine WritesBehind.releasing ?_ (writes_disposal engine)
  rw [useArtifact_eq]
  have hreported : ((drain format stream queue).gate .compiling).trace Event.write? = [] :=
    writes_drainFrom format stream .zero queue
  have hstages : (runStages engine artifact config.stages).gate.trace Event.write? = [] :=
    writes_runStages engine artifact config.stages
  have hchecked : (runStages engine artifact config.stages).gate.halt? =
      [stageGate engine config artifact].findSome? id := by
    rw [halt?_stages]
    cases stageGate engine config artifact <;> rfl
  refine WritesBehind.bind hreported (halt?_gate_drain _ _ _ _) fun _ _ => ?_
  refine WritesBehind.bind hstages hchecked fun _ hpassed => ?_
  rw [← artifact_stages engine config artifact hpassed]
  exact writesBehind_output engine sink config.outputs _

/-- The gates in front of the writes of a run, in order: every way in which a run can fail other than
by an output that the sink refuses. They are finding the files, the report on the sources, the report
on the artifact, validation and each view of the plan. -/
def gatesBeforeWriting : List (Option Halt) :=
  match (discover engine loader config.extension config.entry limit).result with
  | .error halt => [some halt]
  | .ok ⟨session, _⟩ =>
    reportGates .parsing (engine.waiting session) (parseReport engine stream colorize session) ++
      (reportGates .compiling
          (engine.waiting (compilation engine stream config colorize session).2.1)
          (compileReport engine stream config colorize session) ++
        useGatesBeforeWriting engine config (compilation engine stream config colorize session).1)

/-- The artifact of a run as it is when its outputs are produced: compiled from the files that were
found, and taken through the stages. -/
def finalArtifact? : Option engine.Artifact :=
  match (discover engine loader config.extension config.entry limit).result with
  | .error _ => none
  | .ok ⟨session, _⟩ =>
    some (staged engine config (compilation engine stream config colorize session).1)

/-- What an emission of the plan comes to: its destination, with the bytes of its own view of the
final artifact. -/
def finalWrite? (emission : Emission) : Option Write :=
  (finalArtifact? engine loader stream limit config colorize).bind fun artifact =>
    viewWrite? engine artifact emission

/-- A run writes behind all of its other gates. -/
theorem writesBehind_run :
    WritesBehind sink (gatesBeforeWriting engine loader stream limit config colorize)
      (config.outputs.plan.filterMap (finalWrite? engine loader stream limit config colorize))
      (run engine loader sink stream limit config colorize) := by
  rw [run_eq]
  unfold gatesBeforeWriting finalWrite? finalArtifact?
  have hquiet := writes_discover engine loader config.extension config.entry limit
  cases hfound : (discover engine loader config.extension config.entry limit).result with
  | error halt =>
      rw [Work.bind_of_error hfound]
      exact WritesBehind.of_halt rfl rfl hquiet
  | ok gathered =>
      apply WritesBehind.after hfound hquiet
      have hreported : ((parseReport engine stream colorize gathered.session).gate .parsing).trace
          Event.write? = [] := writes_drainFrom _ _ _ _
      apply WritesBehind.bind hreported (halt?_gate_drain _ _ _ _)
      intro _ _
      -- compiling leaves notes and a call, and then all is up to the work on the artifact
      apply WritesBehind.after rfl rfl
      refine WritesBehind.after rfl ?_ ?_
      · simp [Work.emit, Work.trace]
      · have hwritten := writesBehind_finish engine sink
          (parseReport engine stream colorize gathered.session).stream config
          (compilation engine stream config colorize gathered.session).1
          (fun d => engine.format d colorize)
          (engine.waiting (compilation engine stream config colorize gathered.session).2.1)
        exact hwritten.andThen (fun _ => rfl) fun _ => rfl

/-- Once the gates in front of the writes are passed, every emission comes to an output. -/
theorem map_finalWrite?
    (hpassed : (gatesBeforeWriting engine loader stream limit config colorize).findSome? id = none) :
    config.outputs.plan.map (finalWrite? engine loader stream limit config colorize) =
      (config.outputs.plan.filterMap
        (finalWrite? engine loader stream limit config colorize)).map some := by
  have hthere : ∀ emission ∈ config.outputs.plan,
      (finalWrite? engine loader stream limit config colorize emission).isSome := by
    intro emission hplanned
    unfold gatesBeforeWriting at hpassed
    unfold finalWrite? finalArtifact?
    cases hfound : (discover engine loader config.extension config.entry limit).result with
    | error halt => simp [hfound] at hpassed
    | ok gathered =>
        simp only [hfound, List.findSome?_append, Option.or_eq_none_iff, useGatesBeforeWriting,
          List.findSome?_eq_none_iff, List.mem_map] at hpassed
        have hviewed := hpassed.2.2.2 _ ⟨emission, hplanned, rfl⟩
        unfold viewGate at hviewed
        simp only [Option.bind_some, viewWrite?]
        cases hview : engine.view (staged engine config
            (compilation engine stream config colorize gathered.session).1) emission.format with
        | ok bytes => rfl
        | error failure => simp [hview] at hviewed
  rw [List.map_filterMap, eq_comm, List.filterMap_eq_map_iff_forall_eq_some]
  intro emission hplanned
  obtain ⟨write, hsame⟩ := Option.isSome_iff_exists.mp (hthere emission hplanned)
  simp [hsame]

end Steps

/-- **What a run writes is the beginning of its plan.** Whatever the engine, the files, the error
stream and the sink do,

* the writes are those of the first emissions of the plan, in its order, each with the bytes of its own
  view of the final artifact;
* they are the whole plan exactly if the run comes to a result;
* a gate in front of the writes that fails (a missing file, errors in the sources or from compiling, an
  error stream that fails, an invalid artifact, a view that fails behind others that did not) is how
  the run fails, and nothing is written;
* a run that fails although it passed all of these has been refused the first emission behind those
  that it has written. -/
theorem run_writes_plan_prefix (engine : Engine) (loader : Loader) (sink : Sink)
    (stream : ErrorStream) (limit : Nat) (config : Config) (colorize : Bool) :
    let work := run engine loader sink stream limit config colorize
    let writes := work.trace Event.write?
    let plan := config.outputs.plan
    let finalWrite? := finalWrite? engine loader stream limit config colorize
    let gates := gatesBeforeWriting engine loader stream limit config colorize
    writes.map some = (plan.take writes.length).map finalWrite? ∧
      (writes.length = plan.length ↔ ∃ outcome, work.result = .ok outcome) ∧
      (∀ halt, gates.findSome? id = some halt → work.result = .error halt ∧ writes = []) ∧
      (gates.findSome? id = none → ∀ halt, work.result = .error halt →
        ∃ emission write cause, plan[writes.length]? = some emission ∧
          finalWrite? emission = some write ∧ sink writes write = some cause ∧
          halt = .failure (.io cause)) := by
  intro work writes plan finalWrite? gates
  have hbehind : WritesBehind sink gates (plan.filterMap finalWrite?) work :=
    writesBehind_run engine loader sink stream limit config colorize
  cases hfirst : gates.findSome? id with
  | some halt =>
      have hstopped : work.result = .error halt := Work.result_of_halt? (hbehind.held halt hfirst).1
      have hunwritten : writes = [] := (hbehind.held halt hfirst).2
      refine ⟨by simp [hunwritten], ?_, ?_, nofun⟩
      · have hsome : 0 < plan.length := List.length_pos_of_ne_nil config.outputs.plan_ne_nil
        rw [hunwritten, List.length_nil, hstopped]
        exact iff_of_false (Nat.ne_of_lt hsome) nofun
      · intro other hsame
        obtain rfl := Option.some.inj hsame
        exact ⟨hstopped, hunwritten⟩
  | none =>
      have hupTo : WrittenUpTo sink [] (plan.filterMap finalWrite?) writes work.halt? :=
        hbehind.passed hfirst
      have hmade : plan.map finalWrite? = (plan.filterMap finalWrite?).map some :=
        map_finalWrite? engine loader stream limit config colorize hfirst
      refine ⟨hupTo.map_some hmade, ?_, nofun, ?_⟩
      · rw [hupTo.length_eq_iff hmade]
        exact Work.halt?_eq_none_iff_exists
      · intro _ halt hfailed
        rw [Work.halt?_of_error hfailed] at hupTo
        exact hupTo.exists_refused hmade

end Wasmline
