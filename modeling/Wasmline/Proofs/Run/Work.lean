import Wasmline.Run.Work

/-!
# Following work step by step

Work in several steps is taken apart here once, so that what is proved about a run never looks inside
`Work.bind`. A step either came to a result, and then the trace of the whole is its own trace followed
by that of the rest, or it stopped short, and then it is the whole.

`Work.trace` is the part of the trace that one kind of event makes up, such as the calls of the engine
(`Event.call?`) or the names of the files that were asked for (`Event.load?`).

Work that passes one gate after the other stops short at the first that fails. `halt?_bind` puts that
together from the gates of the single steps, and `Follows.bind` the calls that are made on the way.
-/

namespace Wasmline.Work

variable {α β γ : Type}

/-- The events of one kind, first to last. -/
def trace (part? : Event → Option γ) (work : Work α) : List γ :=
  work.events.filterMap part?

/-- Steps came to a result if each of them did. -/
theorem result_bind_eq_ok_iff {work : Work α} {next : α → Work β} {b : β} :
    (work >>= next).result = .ok b ↔ ∃ a, work.result = .ok a ∧ (next a).result = .ok b := by
  cases h : work.result with
  | ok a => simp [bind_of_ok h]
  | error halt => simp [bind_of_error h]

/-- A result that can be seen is there. -/
theorem result_of_toOption {work : Work α} {a : α} (h : work.result.toOption = some a) :
    work.result = .ok a := by
  cases hresult : work.result with
  | ok b =>
      rw [hresult] at h
      exact congrArg _ (Option.some.inj h)
  | error halt =>
      rw [hresult] at h
      exact nomatch h

/-- The trace of two steps, if the first came to a result. -/
theorem trace_bind_of_ok (part? : Event → Option γ) {work : Work α} {a : α}
    (h : work.result = .ok a) (next : α → Work β) :
    (work >>= next).trace part? = work.trace part? ++ (next a).trace part? := by
  rw [bind_of_ok h]
  exact List.filterMap_append

/-- The trace of two steps, if the first stopped short. -/
theorem trace_bind_of_error (part? : Event → Option γ) {work : Work α} {halt : Halt}
    (h : work.result = .error halt) (next : α → Work β) :
    (work >>= next).trace part? = work.trace part? := by
  rw [bind_of_error h]
  rfl

/-- Steps that leave nothing of a kind do not show in its trace. -/
theorem trace_bind_of_silent {part? : Event → Option γ} {work : Work α} {next : α → Work β}
    (h : ∀ a, (next a).trace part? = []) : (work >>= next).trace part? = work.trace part? := by
  cases hresult : work.result with
  | ok a => rw [trace_bind_of_ok _ hresult, h, List.append_nil]
  | error halt => rw [trace_bind_of_error _ hresult]

@[simp] theorem call?_note (n : Note) : Event.call? (.note n) = none := rfl

@[simp] theorem call?_call (c : Call) : Event.call? (.call c) = some c := rfl

/-- Notes are no part of a trace of other events. -/
theorem filterMap_comp_note {part? : Event → Option γ} (h : ∀ n, part? (.note n) = none)
    (notes : List Note) : notes.filterMap (part? ∘ Event.note) = [] :=
  List.filterMap_eq_nil_iff.mpr fun n _ => h n

@[simp] theorem calls_notes (notes : List Note) :
    notes.filterMap (Event.call? ∘ Event.note) = [] :=
  filterMap_comp_note call?_note notes

/-- A call and the notes that it leaves are one call. -/
theorem calls_call_notes (c : Call) (notes : List Note) :
    (.call c :: notes.map Event.note).filterMap Event.call? = [c] := by
  simp

@[simp] theorem result_pure (a : α) : (pure a : Work α).result = .ok a := rfl

@[simp] theorem trace_pure (part? : Event → Option γ) (a : α) :
    (pure a : Work α).trace part? = [] := rfl

/-- What is done on the way does not bear on the result. -/
@[simp] theorem result_emit_bind (events : List Event) (next : Unit → Work β) :
    (emit events >>= next).result = (next ()).result := rfl

@[simp] theorem trace_emit_bind (part? : Event → Option γ) (events : List Event)
    (next : Unit → Work β) :
    (emit events >>= next).trace part? = events.filterMap part? ++ (next ()).trace part? :=
  trace_bind_of_ok part? rfl next

@[simp] theorem result_note_bind (level : Level) (scope : Scope) (text : String)
    (next : Unit → Work β) : (note level scope text >>= next).result = (next ()).result := rfl

theorem trace_note_bind {part? : Event → Option γ} (h : ∀ n, part? (.note n) = none)
    (level : Level) (scope : Scope) (text : String) (next : Unit → Work β) :
    (note level scope text >>= next).trace part? = (next ()).trace part? := by
  rw [note, trace_emit_bind, List.filterMap_cons_none (h _)]
  rfl

@[simp] theorem calls_note_bind (level : Level) (scope : Scope) (text : String)
    (next : Unit → Work β) :
    (note level scope text >>= next).trace Event.call? = (next ()).trace Event.call? :=
  trace_note_bind call?_note level scope text next

/-- What was done in two steps was done in one of them. -/
theorem mem_trace_bind {part? : Event → Option γ} {work : Work α} {next : α → Work β} {c : γ}
    (h : c ∈ (work >>= next).trace part?) :
    c ∈ work.trace part? ∨ ∃ a, work.result = .ok a ∧ c ∈ (next a).trace part? := by
  cases hresult : work.result with
  | ok a =>
      rw [trace_bind_of_ok _ hresult] at h
      rcases List.mem_append.mp h with h | h
      · exact .inl h
      · exact .inr ⟨a, rfl, h⟩
  | error halt =>
      rw [trace_bind_of_error _ hresult] at h
      exact .inl h

/-! ### Gates -/

/-- Why the work stopped short, if it did. -/
def halt? (work : Work α) : Option Halt :=
  match work.result with
  | .ok _ => none
  | .error halt => some halt

theorem halt?_of_ok {work : Work α} {a : α} (h : work.result = .ok a) : work.halt? = none := by
  simp [halt?, h]

theorem halt?_of_error {work : Work α} {halt : Halt} (h : work.result = .error halt) :
    work.halt? = some halt := by
  simp [halt?, h]

theorem result_of_halt? {work : Work α} {halt : Halt} (h : work.halt? = some halt) :
    work.result = .error halt := by
  unfold halt? at h
  split at h
  · exact nomatch h
  · rename_i hresult
    rw [hresult, Option.some.inj h]

theorem halt?_eq_some_iff {work : Work α} {halt : Halt} :
    work.halt? = some halt ↔ work.result = .error halt :=
  ⟨result_of_halt?, halt?_of_error⟩

theorem halt?_eq_none_iff_exists {work : Work α} :
    work.halt? = none ↔ ∃ a, work.result = .ok a := by
  unfold halt?
  split
  · rename_i hresult
    simp [hresult]
  · rename_i hresult
    simp [hresult]

theorem halt?_eq_none_iff {work : Work Unit} : work.halt? = none ↔ work.result = .ok () := by
  rw [halt?_eq_none_iff_exists]
  exact ⟨fun ⟨(), hresult⟩ => hresult, fun hresult => ⟨(), hresult⟩⟩

theorem halt?_bind_of_ok {work : Work α} {a : α} (h : work.result = .ok a) (next : α → Work β) :
    (work >>= next).halt? = (next a).halt? := by
  rw [bind_of_ok h]
  rfl

@[simp] theorem halt?_note_bind (level : Level) (scope : Scope) (text : String)
    (next : Unit → Work β) : (note level scope text >>= next).halt? = (next ()).halt? := rfl

@[simp] theorem halt?_emit_bind (events : List Event) (next : Unit → Work β) :
    (emit events >>= next).halt? = (next ()).halt? := rfl

/-- Making something of a result does not stop. -/
@[simp] theorem halt?_bind_pure (work : Work α) (f : α → β) :
    (work >>= fun a => pure (f a)).halt? = work.halt? := by
  cases hresult : work.result with
  | ok a =>
      rw [bind_of_ok hresult, halt?_of_ok hresult]
      rfl
  | error halt =>
      rw [bind_of_error hresult, halt?_of_error hresult]
      rfl

/-- Two steps stop short at the first gate that fails, those of the first step coming first. -/
theorem halt?_bind {work : Work α} {next : α → Work β} {gates gates' : List (Option Halt)}
    (h : work.halt? = gates.findSome? id)
    (h' : ∀ a, work.result = .ok a → (next a).halt? = gates'.findSome? id) :
    (work >>= next).halt? = (gates ++ gates').findSome? id := by
  rw [List.findSome?_append, ← h]
  cases hresult : work.result with
  | ok a =>
      rw [halt?_of_ok hresult, Option.none_or, ← h' a hresult, bind_of_ok hresult]
      rfl
  | error halt =>
      rw [halt?_of_error hresult, bind_of_error hresult]
      rfl

/-- The calls that the work makes are the first of these, and all of them if it comes to a result. -/
structure Follows (work : Work α) (calls : List Call) : Prop where
  begun : work.trace Event.call? <+: calls
  full : ∀ a, work.result = .ok a → work.trace Event.call? = calls

namespace Follows

theorem of_eq {work : Work α} {calls : List Call} (h : work.trace Event.call? = calls) :
    work.Follows calls :=
  ⟨h ▸ List.prefix_rfl, fun _ _ => h⟩

theorem bind {work : Work α} {next : α → Work β} {calls calls' : List Call}
    (h : work.Follows calls) (h' : ∀ a, work.result = .ok a → (next a).Follows calls') :
    (work >>= next).Follows (calls ++ calls') := by
  cases hresult : work.result with
  | ok a =>
      have hsame := trace_bind_of_ok Event.call? hresult next
      rw [h.full a hresult] at hsame
      refine ⟨hsame ▸ ((List.prefix_append_right_inj calls).mpr (h' a hresult).begun), ?_⟩
      intro b hb
      rw [bind_of_ok hresult] at hb
      rw [hsame, (h' a hresult).full b hb]
  | error halt =>
      refine ⟨?_, ?_⟩
      · rw [trace_bind_of_error Event.call? hresult]
        exact h.begun.trans (List.prefix_append calls calls')
      · intro b hb
        rw [bind_of_error hresult] at hb
        exact nomatch hb

end Follows

end Wasmline.Work

namespace Wasmline.Owning

/-! ### Work on something owned -/

variable {A α γ : Type} (release : A → List Event) (use : Owning A α) (a : A)

/-- Releasing does not bear on the result. -/
@[simp] theorem result_releasing : (releasing release use a).result = (use a).1.result := rfl

@[simp] theorem halt?_releasing : (releasing release use a).halt? = (use a).1.halt? := rfl

/-- **What is owned is released once and last**, whichever way the work on it ends. -/
theorem trace_releasing (part? : Event → Option γ) :
    (releasing release use a).trace part? =
      (use a).1.trace part? ++ (release (use a).2).filterMap part? :=
  List.filterMap_append

end Wasmline.Owning
