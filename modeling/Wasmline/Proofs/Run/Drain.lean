import Wasmline.Proofs.Run.Work
import Wasmline.Run.Basic

/-!
# What reporting comes to

A report that the stream took whole has taken every waiting diagnostic from the queue, one call for
each and one more that finds it empty (`calls_drain_of_success`), and its tally counts the errors
among them (`errors_drain_of_success`). A run therefore passes a report exactly if the stream took it
and there was no error in the queue: `reportGates` are those two gates, and `halt?_gate_drain` says
that the run stops at the first of them that fails.
-/

namespace Wasmline

/-- The calls that take all of these diagnostics from a queue. -/
def pullCalls (queue : List Diagnostic) : List Call :=
  queue.map (fun d => .nextDiagnostic (some d)) ++ [.nextDiagnostic none]

/-- A report ends a run if the stream fails, and after that if there are errors in the queue. -/
def reportGates (tooMany : Nat → Failure) (queue : List Diagnostic) (report : Drained) :
    List (Option Halt) :=
  [report.failure.map fun cause => .failure (.io cause),
    if queue.any Diagnostic.isError then
      some (.failure (tooMany (queue.countP Diagnostic.isError)))
    else none]

/-- One more diagnostic is one more error if it is one. -/
theorem Tally.errors_record (t : Tally) (d : Diagnostic) :
    (t.record d.severity).errors = t.errors + if d.isError then 1 else 0 := by
  unfold Diagnostic.isError
  cases d.severity <;> rfl

section Drain

variable (format : Diagnostic → String)

/-- A diagnostic that fits is reported, and the next one follows. -/
theorem drainFrom_cons_of_fits {stream : ErrorStream} {d : Diagnostic}
    (hfits : stream.fits (reportBytes format d) = true) (tally : Tally) (ds : List Diagnostic) :
    drainFrom format stream tally (d :: ds) =
      let rest := drainFrom format (stream.push (reportBytes format d)) (tally.record d.severity) ds
      { rest with
        events := [.call (.nextDiagnostic (some d)), .report (stream.taken (reportBytes format d))] ++
          rest.events } :=
  if_pos hfits

/-- A diagnostic that does not fit is the last to be taken from the queue. -/
theorem drainFrom_cons_of_not_fits {stream : ErrorStream} {d : Diagnostic}
    (hfits : ¬ stream.fits (reportBytes format d) = true) (tally : Tally) (ds : List Diagnostic) :
    drainFrom format stream tally (d :: ds) =
      { tally := tally.record d.severity, rest := ds
        stream := stream.push (reportBytes format d), failure := some stream.closed
        events :=
          [.call (.nextDiagnostic (some d)), .report (stream.taken (reportBytes format d))] } :=
  if_neg hfits

/-- Reporting calls the engine for diagnostics only. -/
theorem calls_drainFrom : (stream : ErrorStream) → (tally : Tally) → (queue : List Diagnostic) →
    ∀ c ∈ (drainFrom format stream tally queue).events.filterMap Event.call?,
      ∃ d, c = .nextDiagnostic d
  | _, _, [] => by
      intro c hc
      rw [drainFrom, Work.calls_call_notes] at hc
      exact ⟨none, List.mem_singleton.mp hc⟩
  | stream, tally, d :: ds => by
      intro c hc
      by_cases hfits : stream.fits (reportBytes format d) = true
      · rw [drainFrom_cons_of_fits format hfits] at hc
        rcases List.mem_cons.mp hc with rfl | hc
        · exact ⟨some d, rfl⟩
        · exact calls_drainFrom _ _ ds c hc
      · rw [drainFrom_cons_of_not_fits format hfits] at hc
        exact ⟨some d, List.mem_singleton.mp hc⟩

/-- A report that the stream took whole emptied the queue, and counted what was in it. -/
theorem drainFrom_of_success : (stream : ErrorStream) → (tally : Tally) →
    (queue : List Diagnostic) → (drainFrom format stream tally queue).failure = none →
      (drainFrom format stream tally queue).events.filterMap Event.call? = pullCalls queue ∧
      (drainFrom format stream tally queue).tally.errors =
        tally.errors + queue.countP Diagnostic.isError
  | _, _, [], _ => by
      refine ⟨?_, rfl⟩
      rw [drainFrom, Work.calls_call_notes]
      rfl
  | stream, tally, d :: ds, h => by
      by_cases hfits : stream.fits (reportBytes format d) = true
      · rw [drainFrom_cons_of_fits format hfits] at h ⊢
        obtain ⟨hcalls, herrors⟩ := drainFrom_of_success _ _ ds h
        refine ⟨?_, ?_⟩
        · show Call.nextDiagnostic (some d) ::
            (drainFrom _ _ _ ds).events.filterMap Event.call? = _
          rw [hcalls]
          rfl
        · show (drainFrom _ _ _ ds).tally.errors = _
          rw [herrors, Tally.errors_record, List.countP_cons]
          omega
      · rw [drainFrom_cons_of_not_fits format hfits] at h
        exact nomatch h

variable (stream : ErrorStream) (queue : List Diagnostic)

theorem calls_drain_of_success (h : (drain format stream queue).failure = none) :
    (drain format stream queue).events.filterMap Event.call? = pullCalls queue :=
  (drainFrom_of_success format stream .zero queue h).1

theorem errors_drain_of_success (h : (drain format stream queue).failure = none) :
    (drain format stream queue).tally.errors = queue.countP Diagnostic.isError := by
  have hcounted := (drainFrom_of_success format stream .zero queue h).2
  rwa [Tally.zero, Nat.zero_add] at hcounted

/-- A run stops at a report if the stream failed or else if there was an error to report. -/
theorem halt?_gate_drain (tooMany : Nat → Failure) :
    ((drain format stream queue).gate tooMany).halt? =
      (reportGates tooMany queue (drain format stream queue)).findSome? id := by
  unfold Drained.gate Work.halt? reportGates
  rcases hfailed : (drain format stream queue).failure with _ | cause
  · have herrors := errors_drain_of_success format stream queue hfailed
    by_cases hclean : queue.any Diagnostic.isError
    · have hsome : 0 < queue.countP Diagnostic.isError :=
        List.countP_pos_iff.mpr (List.any_eq_true.mp hclean)
      simp [Tally.hasErrors, herrors, hclean, hsome]
    · have hnone : queue.countP Diagnostic.isError = 0 := by
        rw [List.countP_eq_zero]
        exact fun d hd hbad => hclean (List.any_eq_true.mpr ⟨d, hd, hbad⟩)
      simp [Tally.hasErrors, herrors, hclean, hnone]
  · rfl

/-- A run passes a report exactly if the stream took it and no error was waiting. -/
theorem gate_drain_eq_ok_iff (tooMany : Nat → Failure) :
    ((drain format stream queue).gate tooMany).result = .ok () ↔
      (drain format stream queue).failure = none ∧ ∀ d ∈ queue, d.isError = false := by
  rw [← Work.halt?_eq_none_iff, halt?_gate_drain, reportGates, List.findSome?_eq_none_iff]
  simp

end Drain

end Wasmline
