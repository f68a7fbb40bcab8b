import Wasmline.Proofs.Run.Drain

/-!
# From an artifact to its outputs

What is done with an artifact is fixed by the configuration: the calls of the stages, and then one
view for each output of the plan (`Config.useCalls`). A run makes these calls in this order and leaves
off at the first that fails (`follows_stages`, `follows_produce`).

Releasing the artifact is not one of the steps: it comes behind all that is done with the artifact,
however that went (`calls_finish`).
-/

namespace Wasmline

/-! ### Stages -/

/-- The calls that the stages of a configuration make. -/
def Config.stageCalls (config : Config) : List Call :=
  (if config.validate then [.validate] else []) ++
    (config.trapMode.passName?.map fun pass => Call.runPasses [pass]).toList ++
    (if config.optimize then [.optimize] else [])

/-- The calls that all the work on an artifact makes: those of the stages and a view for each output. -/
def Config.useCalls (config : Config) : List Call :=
  config.stageCalls ++ config.outputs.plan.map fun emission => .view emission.format

section Stages

variable (engine : Engine) (config : Config) (artifact : engine.Artifact)

/-- What the stages make of an artifact. -/
def staged : engine.Artifact :=
  let passed :=
    match config.trapMode.passName? with
    | some pass => (engine.runPasses artifact [pass]).1
    | none => artifact
  if config.optimize then (engine.optimize passed).1 else passed

/-- The stages fail if validation is wanted and the artifact is not valid. -/
def stageGate : Option Halt :=
  if config.validate && !(engine.validate artifact).1 then some (.failure .invalid) else none

/-- The stages behind validation change the artifact and cannot fail. -/
theorem runStages_tail :
    (runStages engine artifact config.stages.tail).artifact = staged engine config artifact ∧
      (runStages engine artifact config.stages.tail).failure = none ∧
      (runStages engine artifact config.stages.tail).events.filterMap Event.call? =
        (config.trapMode.passName?.map fun pass => Call.runPasses [pass]).toList ++
          (if config.optimize then [.optimize] else []) := by
  unfold Config.stages staged
  cases config.trapMode <;> cases config.optimize <;>
    simp [runStages, applyStage, TrapMode.passName?, List.filterMap_cons]

/-- Validation comes first and judges the artifact as it was compiled. -/
theorem runStages_stages :
    runStages engine artifact config.stages =
      let last := runStages engine artifact config.stages.tail
      if config.validate then
        let begun := .note ⟨.debug, .staging, "Running stage: validate"⟩ :: .call .validate ::
          (engine.validate artifact).2.map .note
        if (engine.validate artifact).1 then { last with events := begun ++ last.events }
        else ⟨artifact, some .invalid, begun⟩
      else last := by
  unfold Config.stages
  cases config.validate <;> cases hvalid : (engine.validate artifact).1 <;>
    simp [runStages, applyStage, Stage.display, hvalid]

/-- The stages stop the run only if validation fails. -/
theorem halt?_stages :
    (runStages engine artifact config.stages).gate.halt? = stageGate engine config artifact := by
  obtain ⟨-, hfine, -⟩ := runStages_tail engine config artifact
  rw [runStages_stages, stageGate]
  cases config.validate <;> cases (engine.validate artifact).1 <;>
    simp [Staged.gate, Work.halt?, hfine]

/-- Stages that went well leave the artifact that they make. -/
theorem artifact_stages (h : (runStages engine artifact config.stages).gate.result = .ok ()) :
    (runStages engine artifact config.stages).artifact = staged engine config artifact := by
  obtain ⟨hsame, -, -⟩ := runStages_tail engine config artifact
  rw [runStages_stages] at h ⊢
  cases hv : config.validate <;> cases hvalid : (engine.validate artifact).1 <;>
    simp_all [Staged.gate]

/-- The stages make their calls in order. -/
theorem follows_stages :
    (runStages engine artifact config.stages).gate.Follows config.stageCalls := by
  obtain ⟨-, -, hcalls⟩ := runStages_tail engine config artifact
  rw [runStages_stages, Config.stageCalls, List.append_assoc, ← hcalls]
  cases config.validate
  · exact .of_eq rfl
  · cases (engine.validate artifact).1
    · -- validation was called, and nothing after it
      refine ⟨?_, fun _ hok => nomatch hok⟩
      simp [Staged.gate, Work.trace, List.filterMap_cons]
    · refine .of_eq ?_
      simp [Staged.gate, Work.trace, List.filterMap_cons]

end Stages

/-! ### Outputs -/

section Outputs

variable (engine : Engine) (artifact : engine.Artifact)

/-- Why an output cannot be produced, if it cannot. -/
def viewGate (emission : Emission) : Option Halt :=
  match engine.view artifact emission.format with
  | .ok _ => none
  | .error failure => some (.failure failure)

/-- The output that a view gives, if it gives one. -/
def viewWrite? (emission : Emission) : Option Write :=
  (engine.view artifact emission.format).toOption.map fun bytes => ⟨emission.destination, bytes⟩

/-- Why each of these outputs cannot be written after those before it, if it cannot. -/
def writeGates (sink : Sink) (writes : List Write) : List (Option Halt) :=
  writes.mapIdx fun i write =>
    (sink (writes.take i) write).map fun cause => .failure (.io cause)

/-- An output whose view fails is the last that is tried. -/
theorem produce_cons_of_error {emission : Emission} {failure : Failure}
    (hview : engine.view artifact emission.format = .error failure) (rest : List Emission) :
    produce engine artifact (emission :: rest) =
      ⟨.error (.failure failure), [.call (.view emission.format)]⟩ := by
  rw [produce, hview]
  rfl

/-- An output whose view is there is followed by the others. -/
theorem produce_cons_of_ok {emission : Emission} {bytes : List UInt8}
    (hview : engine.view artifact emission.format = .ok bytes) (rest : List Emission) :
    produce engine artifact (emission :: rest) = (do
      Work.emit [.call (.view emission.format)]
      let produced ← produce engine artifact rest
      return (emission, ⟨emission.destination, bytes⟩) :: produced) := by
  rw [produce, hview]

/-- Producing outputs stops at the first view that fails. -/
theorem halt?_produce : (plan : List Emission) →
    (produce engine artifact plan).halt? = (plan.map (viewGate engine artifact)).findSome? id
  | [] => rfl
  | emission :: rest => by
      rw [List.map_cons, viewGate]
      cases hview : engine.view artifact emission.format with
      | error failure =>
          rw [produce_cons_of_error engine artifact hview]
          rfl
      | ok bytes =>
          rw [produce_cons_of_ok engine artifact hview, Work.halt?_emit_bind, Work.halt?_bind_pure]
          exact halt?_produce rest

/-- Producing outputs calls for one view after the other. -/
theorem follows_produce : (plan : List Emission) →
    (produce engine artifact plan).Follows (plan.map fun emission => .view emission.format)
  | [] => .of_eq rfl
  | emission :: rest => by
      rw [List.map_cons]
      cases hview : engine.view artifact emission.format with
      | error failure =>
          rw [produce_cons_of_error engine artifact hview]
          exact ⟨List.prefix_cons_inj _ |>.mpr List.nil_prefix, fun _ hok => nomatch hok⟩
      | ok bytes =>
          rw [produce_cons_of_ok engine artifact hview]
          have hcalled : (Work.emit [.call (.view emission.format)]).Follows
            [.view emission.format] := .of_eq rfl
          refine hcalled.bind fun _ _ => ?_
          rw [← List.append_nil (rest.map _)]
          exact (follows_produce rest).bind fun _ _ => .of_eq rfl

/-- The outputs that are produced are those that the views give, in the order of the plan. -/
theorem produce_eq_ok : (plan : List Emission) → {produced : List (Emission × Write)} →
    (produce engine artifact plan).result = .ok produced →
      produced.map Prod.snd = plan.filterMap (viewWrite? engine artifact)
  | [], _, h => by
      obtain rfl := Except.ok.inj h
      rfl
  | emission :: rest, produced, h => by
      cases hview : engine.view artifact emission.format with
      | error failure =>
          rw [produce_cons_of_error engine artifact hview] at h
          exact nomatch h
      | ok bytes =>
          rw [produce_cons_of_ok engine artifact hview, Work.result_emit_bind] at h
          obtain ⟨others, hmade, h⟩ := Work.result_bind_eq_ok_iff.mp h
          obtain rfl := Except.ok.inj h
          have ih := produce_eq_ok rest hmade
          have hthere : viewWrite? engine artifact emission = some ⟨emission.destination, bytes⟩ := by
            rw [viewWrite?, hview]
            rfl
          rw [List.map_cons, ih, List.filterMap_cons_some hthere]

/-- Writing does not call the engine. -/
theorem calls_writeAll (sink : Sink) : (written : List Write) →
    (produced : List (Emission × Write)) →
      (writeAll sink written produced).trace Event.call? = []
  | _, [] => rfl
  | written, (emission, write) :: rest => by
      unfold writeAll
      rw [Work.trace_emit_bind]
      cases sink written write with
      | some cause => rfl
      | none =>
          rw [Work.trace_emit_bind, calls_writeAll]
          rfl

/-- Writing stops at the first output that the sink does not take after those before it. -/
theorem halt?_writeAll (sink : Sink) : (written : List Write) →
    (produced : List (Emission × Write)) →
      (writeAll sink written produced).halt? =
        ((produced.map Prod.snd).mapIdx fun i write =>
          (sink (written ++ (produced.map Prod.snd).take i) write).map fun cause =>
            Halt.failure (.io cause)).findSome? id
  | _, [] => rfl
  | written, (emission, write) :: rest => by
      unfold writeAll
      rw [Work.halt?_emit_bind, List.map_cons, List.mapIdx_cons, List.take_zero, List.append_nil,
        List.findSome?_cons]
      cases sink written write with
      | some cause => rfl
      | none =>
          rw [Work.halt?_emit_bind, halt?_writeAll]
          simp

section Output

variable (sink : Sink) (outputs : Outputs)

/-- Putting out an artifact stops at the first view that fails, and after the last view at the first
write that fails. -/
theorem halt?_output :
    (output engine sink outputs artifact).halt? =
      (outputs.plan.map (viewGate engine artifact) ++
        writeGates sink (outputs.plan.filterMap (viewWrite? engine artifact))).findSome? id := by
  unfold output
  rw [Work.halt?_emit_bind]
  refine Work.halt?_bind (halt?_produce engine artifact outputs.plan) ?_
  intro produced hmade
  rw [halt?_writeAll, produce_eq_ok engine artifact outputs.plan hmade, writeGates]
  simp

theorem follows_output :
    (output engine sink outputs artifact).Follows
      (outputs.plan.map fun emission => .view emission.format) := by
  have hplanned : (Work.emit (outputs.planNotes.map .note)).Follows [] :=
    .of_eq (by simp [Work.emit, Work.trace])
  have hall := hplanned.bind fun _ _ => (follows_produce engine artifact outputs.plan).bind
    fun produced _ => .of_eq (calls_writeAll sink [] produced)
  rwa [List.nil_append, List.append_nil] at hall

end Output

end Outputs

/-! ### The whole work on an artifact -/

section Use

variable (engine : Engine) (sink : Sink) (config : Config) (artifact : engine.Artifact)

/-- What is done with an artifact, in steps: its report, the stages, and the outputs of what the stages
made of it. -/
theorem useArtifact_eq (report : Drained) :
    (useArtifact engine sink config report artifact).1 = (do
      report.gate .compiling
      (runStages engine artifact config.stages).gate
      output engine sink config.outputs (runStages engine artifact config.stages).artifact) :=
  rfl

/-- What is done with an artifact behind its report can fail in these places, in this order. -/
def useGates : List (Option Halt) :=
  [stageGate engine config artifact] ++
    (config.outputs.plan.map (viewGate engine (staged engine config artifact)) ++
      writeGates sink
        (config.outputs.plan.filterMap (viewWrite? engine (staged engine config artifact))))

/-- Releasing an artifact calls the engine once. -/
@[simp] theorem calls_disposal : (disposal engine artifact).filterMap Event.call? = [.dispose] := by
  simp [disposal, List.filterMap_cons]

/-- **An artifact is released when all that is done with it is over**, however that went. -/
theorem calls_finish (report : Drained) :
    (finish engine sink config artifact report).trace Event.call? =
      (useArtifact engine sink config report artifact).1.trace Event.call? ++ [.dispose] := by
  rw [finish, Owning.trace_releasing, calls_disposal]

/-- The work on an artifact starts when its report has passed, and makes the calls of the
configuration in their order. -/
theorem calls_useArtifact (report : Drained) :
    ∃ used, (useArtifact engine sink config report artifact).1.trace Event.call? =
        report.events.filterMap Event.call? ++ used ∧
      used <+: config.useCalls ∧ (used ≠ [] → (report.gate .compiling).result = .ok ()) := by
  rw [useArtifact_eq]
  cases hresult : (report.gate .compiling).result with
  | error halt =>
      rw [Work.trace_bind_of_error _ hresult]
      exact ⟨[], (List.append_nil _).symm, List.nil_prefix, fun hsome => absurd rfl hsome⟩
  | ok a =>
      rw [Work.trace_bind_of_ok _ hresult]
      have hcalls := (follows_stages engine config artifact).bind fun _ _ =>
        follows_output engine (runStages engine artifact config.stages).artifact sink config.outputs
      exact ⟨_, rfl, hcalls.begun, fun _ => rfl⟩

/-- The work on an artifact stops at the first gate that fails. -/
theorem halt?_finish (report : Drained) {gates : List (Option Halt)}
    (h : (report.gate .compiling).halt? = gates.findSome? id) :
    (finish engine sink config artifact report).halt? =
      (gates ++ useGates engine sink config artifact).findSome? id := by
  rw [finish, Owning.halt?_releasing, useArtifact_eq]
  refine Work.halt?_bind h fun _ _ => ?_
  refine Work.halt?_bind ?_ fun _ hpassed => ?_
  · rw [halt?_stages]
    cases stageGate engine config artifact <;> rfl
  · rw [← artifact_stages engine config artifact hpassed, halt?_output]

end Use

end Wasmline
