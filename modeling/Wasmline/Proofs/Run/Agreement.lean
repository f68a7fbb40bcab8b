import Wasmline.Proofs.Run.Writing

/-!
# Two runs side by side

Two pieces of work agree if both come to results that belong together, or both stop short for the same
reason, and if they have written the same outputs. Notes, the names of files that were asked for and
the text of reports may differ. Agreement is put together step by step along two pieces of work of the
same shape (`Agree.bind`).

A report counts what was reported by severity only. With an error stream that takes every byte, two
reports on queues of the same severities therefore pass or stop a run alike (`agree_gate_drain`), and
all that is done with an artifact behind such reports is the same (`agree_finish`).
-/

namespace Wasmline

/-- Both came to results that belong together, or both stopped short for the same reason. -/
inductive EndAlike {α β : Type} (R : α → β → Prop) : Except Halt α → Except Halt β → Prop
  | ok {a : α} {b : β} (h : R a b) : EndAlike R (.ok a) (.ok b)
  | error (halt : Halt) : EndAlike R (.error halt) (.error halt)

namespace Work

variable {α β γ δ : Type} {R : α → β → Prop} {S : γ → δ → Prop}

/-- Two pieces of work end alike and have written the same. -/
structure Agree (R : α → β → Prop) (work : Work α) (work' : Work β) : Prop where
  ends : EndAlike R work.result work'.result
  writes : work'.trace Event.write? = work.trace Event.write?

namespace Agree

theorem of_result_eq {work work' : Work α} (hresult : work'.result = work.result)
    (hwrites : work'.trace Event.write? = work.trace Event.write?) : Agree Eq work work' := by
  refine ⟨?_, hwrites⟩
  rw [hresult]
  cases work.result with
  | ok a => exact .ok rfl
  | error halt => exact .error halt

theorem refl (work : Work α) : Agree Eq work work :=
  of_result_eq rfl rfl

theorem pure {a : α} {b : β} (h : R a b) : Agree R (Pure.pure a : Work α) (Pure.pure b : Work β) :=
  ⟨.ok h, rfl⟩

theorem bind {work : Work α} {work' : Work β} {next : α → Work γ} {next' : β → Work δ}
    (h : Agree R work work') (h' : ∀ a b, R a b → Agree S (next a) (next' b)) :
    Agree S (work >>= next) (work' >>= next') := by
  obtain ⟨hends, hwrites⟩ := h
  generalize hresult : work.result = r at hends
  generalize hresult' : work'.result = r' at hends
  cases hends with
  | error halt =>
      rw [bind_of_error hresult, bind_of_error hresult']
      exact ⟨.error halt, hwrites⟩
  | @ok a b hrelated =>
      obtain ⟨hends, hwrites'⟩ := h' a b hrelated
      refine ⟨?_, ?_⟩
      · rw [Work.bind_of_ok hresult, Work.bind_of_ok hresult']
        exact hends
      · rw [trace_bind_of_ok _ hresult, trace_bind_of_ok _ hresult', hwrites, hwrites']

/-- A first step that is the same on both sides and comes to a result. -/
theorem bind_of_ok {work : Work γ} {a : γ} (hresult : work.result = .ok a) {next : γ → Work α}
    {next' : γ → Work β} (h : Agree R (next a) (next' a)) :
    Agree R (work >>= next) (work >>= next') := by
  refine ⟨?_, ?_⟩
  · rw [Work.bind_of_ok hresult, Work.bind_of_ok hresult]
    exact h.ends
  · rw [trace_bind_of_ok _ hresult, trace_bind_of_ok _ hresult, h.writes]

/-- Steps that write nothing and cannot stop need not be compared. -/
theorem emit_bind {events events' : List Event} {next : Unit → Work α} {next' : Unit → Work β}
    (hquiet : events.filterMap Event.write? = []) (hquiet' : events'.filterMap Event.write? = [])
    (h : Agree R (next ()) (next' ())) : Agree R (emit events >>= next) (emit events' >>= next') := by
  refine ⟨h.ends, ?_⟩
  rw [trace_emit_bind, trace_emit_bind, hquiet, hquiet', h.writes]

theorem note_bind {level level' : Level} {scope scope' : Scope} {text text' : String}
    {next : Unit → Work α} {next' : Unit → Work β} (h : Agree R (next ()) (next' ())) :
    Agree R (note level scope text >>= next) (note level' scope' text' >>= next') :=
  emit_bind rfl rfl h

theorem releasing {A B : Type} {release : A → List Event} {release' : B → List Event}
    {use : Owning A α} {use' : Owning B β} {a : A} {b : B} (h : Agree R (use a).1 (use' b).1)
    (hquiet : ∀ a, (release a).filterMap Event.write? = [])
    (hquiet' : ∀ b, (release' b).filterMap Event.write? = []) :
    Agree R (Owning.releasing release use a) (Owning.releasing release' use' b) := by
  refine ⟨?_, ?_⟩
  · rw [Owning.result_releasing, Owning.result_releasing]
    exact h.ends
  · rw [writes_releasing hquiet, writes_releasing hquiet', h.writes]

end Agree

end Work

/-! ### Reports -/

/-- A stream that takes everything takes a report whole, which then counts by severity. Only the flush can
fail. -/
theorem drainFrom_of_room_eq_none (format : Diagnostic → String) {stream : ErrorStream}
    (hroom : stream.room = none) : (tally : Tally) → (queue : List Diagnostic) →
      (drainFrom format stream tally queue).failure = stream.flushFailure? ∧
      (drainFrom format stream tally queue).rest = [] ∧
      (drainFrom format stream tally queue).stream = stream.flush ∧
      (drainFrom format stream tally queue).tally =
        (queue.map Diagnostic.severity).foldl Tally.record tally
  | _, [] => ⟨rfl, rfl, rfl, rfl⟩
  | tally, d :: ds => by
      have hfits : stream.fits (reportBytes format d) = true := by simp [ErrorStream.fits, hroom]
      have hsame : stream.push (reportBytes format d) = stream := by
        obtain ⟨room', closed, flushes⟩ := stream
        simp_all [ErrorStream.push]
      rw [drainFrom_cons_of_fits format hfits, hsame]
      exact drainFrom_of_room_eq_none format hroom (tally.record d.severity) ds

section Reports

variable (format : Diagnostic → String) {stream : ErrorStream} {queue queue' : List Diagnostic}

theorem tally_drain_congr (hroom : stream.room = none)
    (hsame : queue'.map Diagnostic.severity = queue.map Diagnostic.severity) :
    (drain format stream queue').tally = (drain format stream queue).tally := by
  obtain ⟨-, -, -, htally⟩ := drainFrom_of_room_eq_none format hroom .zero queue
  obtain ⟨-, -, -, htally'⟩ := drainFrom_of_room_eq_none format hroom .zero queue'
  rw [drain, drain, htally, htally', hsame]

/-- Reports of the same severities pass or stop a run alike. -/
theorem agree_gate_drain (hroom : stream.room = none)
    (hsame : queue'.map Diagnostic.severity = queue.map Diagnostic.severity)
    (tooMany : Nat → Failure) :
    Work.Agree Eq ((drain format stream queue).gate tooMany)
      ((drain format stream queue').gate tooMany) := by
  have hfailure : (drain format stream queue).failure = stream.flushFailure? :=
    (drainFrom_of_room_eq_none format hroom .zero queue).1
  have hfailure' : (drain format stream queue').failure = stream.flushFailure? :=
    (drainFrom_of_room_eq_none format hroom .zero queue').1
  refine .of_result_eq ?_ ?_
  · simp only [Drained.gate, hfailure, hfailure', tally_drain_congr format hroom hsame]
  · exact (writes_drainFrom format _ _ _).trans (writes_drainFrom format _ _ _).symm

end Reports

/-- What is done with an artifact behind a report depends on whether the report passes. -/
theorem agree_finish {engine : Engine} {sink : Sink} {config : Config} {artifact : engine.Artifact}
    {report report' : Drained}
    (h : Work.Agree Eq (report.gate .compiling) (report'.gate .compiling)) :
    Work.Agree Eq (finish engine sink config artifact report)
      (finish engine sink config artifact report') := by
  refine .releasing ?_ (writes_disposal engine) (writes_disposal engine)
  rw [useArtifact_eq, useArtifact_eq]
  refine .bind h ?_
  rintro _ _ rfl
  exact .refl _

end Wasmline
