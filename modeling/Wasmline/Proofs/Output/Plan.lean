import Wasmline.Output.Plan
import Mathlib.Data.List.Basic
import Mathlib.Logic.ExistsUnique

/-!
# Every requested output is planned, once

A request for outputs is read here without the cascade that plans them. A format is *free* if it has no
path of its own. The path whose ending tells the format belongs to at most one free format
(`Outputs.BelongsTo`): to text if it ends like one and text is free, or else to asm.js in the same way, or
else to binary.

A plan has one emission for each format that a path is given for in one of these two ways, in the order
binary, text, asm.js (`mem_requested_iff`, `pairwise_rank_requested`). It comes out empty only if nothing
was asked for at all (`requested_eq_nil_iff`): a path that no format is left for finds the binary format
taken. So the default output never stands in for one that was asked for, and
`plan_honours_requests` says which emissions there are.
-/

namespace Wasmline

/-- The place of a format in the order of outputs. -/
def OutputFormat.rank : OutputFormat → Nat
  | binary => 0
  | text => 1
  | asmjs => 2

/-- A destination is what a path stands for: standard output if the path is empty, or else the file. -/
def Destination.IsFor (path : String) : Destination → Prop
  | stdout => path = ""
  | file name => name = path ∧ path ≠ ""

theorem Destination.isFor_iff {path : String} {d : Destination} : d.IsFor path ↔ d = .ofPath path := by
  unfold ofPath
  by_cases hempty : path = ""
  · rw [if_pos (String.isEmpty_iff.mpr hempty)]
    cases d with
    | stdout => exact iff_of_true hempty rfl
    | file name => exact iff_of_false (fun h => h.2 hempty) Destination.noConfusion
  · rw [if_neg (mt String.isEmpty_iff.mp hempty)]
    cases d with
    | stdout => exact iff_of_false hempty Destination.noConfusion
    | file name => simp [IsFor, hempty]

namespace Outputs

variable {o : Outputs} {path : String} {format : OutputFormat}

/-! ### The path whose ending tells the format -/

/-- The path is one for the text form, and text is free. -/
def SuitsText (o : Outputs) (path : String) : Prop :=
  ((∃ name, path = name ++ ".wast") ∨ ∃ name, path = name ++ ".wat") ∧ o.textFile = none

/-- The path is one for the asm.js form, and asm.js is free. -/
def SuitsAsmjs (o : Outputs) (path : String) : Prop :=
  (∃ name, path = name ++ ".js") ∧ o.asmjsFile = none

/-- The format that a path without a format of its own belongs to. -/
def BelongsTo (o : Outputs) (path : String) : OutputFormat → Prop
  | .text => o.SuitsText path
  | .asmjs => ¬ o.SuitsText path ∧ o.SuitsAsmjs path
  | .binary => ¬ o.SuitsText path ∧ ¬ o.SuitsAsmjs path ∧ o.binaryFile = none

theorem endsIn_iff {tail : String} : endsIn path tail = true ↔ ∃ name, path = name ++ tail := by
  rw [endsIn, List.isSuffixOf_iff_suffix]
  constructor
  · rintro ⟨name, hsame⟩
    refine ⟨String.ofList name, ?_⟩
    rw [← String.toList_inj, String.toList_append, String.toList_ofList, hsame]
  · rintro ⟨name, rfl⟩
    rw [String.toList_append]
    exact List.suffix_append _ _

theorem suitsText_iff :
    ((endsIn path ".wast" || endsIn path ".wat") && o.textFile.isNone) = true ↔ o.SuitsText path := by
  simp only [SuitsText, Bool.and_eq_true, Bool.or_eq_true, endsIn_iff, Option.isNone_iff_eq_none]

theorem suitsAsmjs_iff :
    (endsIn path ".js" && o.asmjsFile.isNone) = true ↔ o.SuitsAsmjs path := by
  simp only [SuitsAsmjs, Bool.and_eq_true, endsIn_iff, Option.isNone_iff_eq_none]

/-- **The cascade finds the format that a path belongs to.** -/
theorem outFormat?_eq_some_iff : o.outFormat? path = some format ↔ o.BelongsTo path format := by
  unfold outFormat?
  by_cases htext : o.SuitsText path
  · rw [if_pos (suitsText_iff.mpr htext)]
    cases format <;> simp [BelongsTo, htext]
  · rw [if_neg (mt suitsText_iff.mp htext)]
    by_cases hasmjs : o.SuitsAsmjs path
    · rw [if_pos (suitsAsmjs_iff.mpr hasmjs)]
      cases format <;> simp [BelongsTo, htext, hasmjs]
    · rw [if_neg (mt suitsAsmjs_iff.mp hasmjs)]
      cases format <;> simp [BelongsTo, htext, hasmjs]

theorem BelongsTo.unique {format' : OutputFormat} (h : o.BelongsTo path format)
    (h' : o.BelongsTo path format') : format = format' := by
  rw [← outFormat?_eq_some_iff] at h h'
  exact Option.some.inj (h.symm.trans h')

/-- A path belongs to a free format. -/
theorem BelongsTo.free (h : o.BelongsTo path format) : o.ownPath format = none := by
  cases format with
  | binary => exact h.2.2
  | text => exact h.2
  | asmjs => exact h.2.2

/-- A path that no format is left for finds the binary format taken. -/
theorem exists_belongsTo_of_binaryFile (path : String) (hfree : o.binaryFile = none) :
    ∃ format, o.BelongsTo path format := by
  by_cases htext : o.SuitsText path
  · exact ⟨.text, htext⟩
  · by_cases hasmjs : o.SuitsAsmjs path
    · exact ⟨.asmjs, htext, hasmjs⟩
    · exact ⟨.binary, htext, hasmjs, hfree⟩

/-! ### What is asked for -/

/-- A format is to be written to this path. -/
inductive Asks (o : Outputs) : OutputFormat → String → Prop
  | own {format : OutputFormat} {path : String} (own : o.ownPath format = some path) : Asks o format path
  | out {format : OutputFormat} {path : String} (out : o.outFile = some path)
      (belongs : o.BelongsTo path format) : Asks o format path

/-- A format is written to the path that is asked for. -/
theorem path?_eq_some_iff : o.path? format = some path ↔ o.Asks format path := by
  unfold path?
  constructor
  · intro h
    split at h
    · rename_i hown
      rw [Option.some.inj h] at hown
      exact .own hown
    · rename_i hout
      split at h
      · rename_i hbelongs
        rw [Option.some.inj h] at hout hbelongs
        exact .out hout (outFormat?_eq_some_iff.mp hbelongs)
      · cases h
    · cases h
  · rintro (hown | ⟨hout, hbelongs⟩)
    · rw [hown]
    · rw [hbelongs.free, hout]
      exact if_pos (outFormat?_eq_some_iff.mpr hbelongs)

theorem mem_requested_iff {e : Emission} :
    e ∈ o.requested ↔ ∃ path, o.Asks e.format path ∧ e.destination.IsFor path := by
  have hevery : e.format ∈ [OutputFormat.binary, .text, .asmjs] := by
    cases e.format <;> decide
  simp only [requested, List.mem_filterMap, Option.map_eq_some_iff, path?_eq_some_iff,
    Destination.isFor_iff]
  constructor
  · rintro ⟨format, -, path, hasks, rfl⟩
    exact ⟨path, hasks, rfl⟩
  · rintro ⟨path, hasks, hdestination⟩
    refine ⟨e.format, hevery, path, hasks, ?_⟩
    rw [← hdestination]

/-- The emissions come in the order of formats, so that no format comes twice. -/
theorem pairwise_rank_requested (o : Outputs) :
    o.requested.Pairwise fun e e' => e.format.rank < e'.format.rank := by
  have hformats : [OutputFormat.binary, .text, .asmjs].Pairwise fun f f' => f.rank < f'.rank := by
    decide
  refine List.pairwise_filterMap.mpr (hformats.imp ?_)
  intro f f' hlt e hmade e' hmade'
  obtain ⟨_, -, rfl⟩ := Option.map_eq_some_iff.mp hmade
  obtain ⟨_, -, rfl⟩ := Option.map_eq_some_iff.mp hmade'
  exact hlt

/-- **If anything is given, something is asked for**: a path that no format is left for finds the binary
format asked for. -/
theorem isEmpty_iff : o.isEmpty = true ↔ ∀ format path, ¬ o.Asks format path := by
  simp only [isEmpty, Bool.and_eq_true, Option.isNone_iff_eq_none]
  constructor
  · rintro ⟨⟨⟨hout, hbinary⟩, htext⟩, hasmjs⟩ format path (hown | ⟨hgiven, -⟩)
    · cases format with
      | binary => exact Option.some_ne_none path (hown.symm.trans hbinary)
      | text => exact Option.some_ne_none path (hown.symm.trans htext)
      | asmjs => exact Option.some_ne_none path (hown.symm.trans hasmjs)
    · exact Option.some_ne_none path (hgiven.symm.trans hout)
  · intro hnothing
    have hfree : ∀ format, o.ownPath format = none := by
      intro format
      rw [Option.eq_none_iff_forall_ne_some]
      exact fun path hown => hnothing format path (.own hown)
    refine ⟨⟨⟨?_, hfree .binary⟩, hfree .text⟩, hfree .asmjs⟩
    rw [Option.eq_none_iff_forall_ne_some]
    intro path hout
    obtain ⟨format, hbelongs⟩ := exists_belongsTo_of_binaryFile path (hfree .binary)
    exact hnothing format path (.out hout hbelongs)

/-! ### The plan -/

theorem requested_eq_nil_iff : o.requested = [] ↔ o.isEmpty = true := by
  rw [isEmpty_iff, List.eq_nil_iff_forall_not_mem]
  constructor
  · intro hnone format path hasks
    apply hnone ⟨format, .ofPath path⟩
    exact mem_requested_iff.mpr ⟨path, hasks, Destination.isFor_iff.mpr rfl⟩
  · intro hnothing e hmember
    obtain ⟨path, hasks, -⟩ := mem_requested_iff.mp hmember
    exact hnothing e.format path hasks

theorem plan_of_isEmpty (h : o.isEmpty = true) : o.plan = [⟨.text, .stdout⟩] := by
  rw [plan, requested_eq_nil_iff.mpr h]

theorem plan_of_not_isEmpty (h : ¬ o.isEmpty = true) : o.plan = o.requested := by
  rw [← requested_eq_nil_iff] at h
  unfold plan
  split
  · contradiction
  · rfl

/-- There is always something to write. -/
theorem plan_ne_nil (o : Outputs) : o.plan ≠ [] := by
  by_cases hempty : o.isEmpty = true
  · rw [plan_of_isEmpty hempty]
    exact List.cons_ne_nil _ _
  · rw [plan_of_not_isEmpty hempty]
    exact mt requested_eq_nil_iff.mp hempty

theorem mem_plan_iff {e : Emission} :
    e ∈ o.plan ↔ (∃ path, o.Asks e.format path ∧ e.destination.IsFor path) ∨
      (o.isEmpty = true ∧ e = ⟨.text, .stdout⟩) := by
  by_cases hempty : o.isEmpty = true
  · have hnothing := isEmpty_iff.mp hempty
    rw [plan_of_isEmpty hempty, List.mem_singleton]
    constructor
    · exact fun hdefault => .inr ⟨hempty, hdefault⟩
    · rintro (⟨path, hasks, -⟩ | ⟨-, hdefault⟩)
      · exact absurd hasks (hnothing e.format path)
      · exact hdefault
  · rw [plan_of_not_isEmpty hempty, mem_requested_iff]
    constructor
    · exact .inl
    · rintro (hasked | ⟨hempty', -⟩)
      · exact hasked
      · exact absurd hempty' hempty

/-- The free format that a path belongs to is the only one without a path of its own that is written
there. -/
theorem belongsTo_iff_mem_plan (hout : o.outFile = some path) :
    o.BelongsTo path format ↔
      o.ownPath format = none ∧ ∃ d : Destination, d.IsFor path ∧ ⟨format, d⟩ ∈ o.plan := by
  constructor
  · intro hbelongs
    refine ⟨hbelongs.free, .ofPath path, Destination.isFor_iff.mpr rfl, ?_⟩
    exact mem_plan_iff.mpr (.inl ⟨path, .out hout hbelongs, Destination.isFor_iff.mpr rfl⟩)
  · rintro ⟨hfree, d, -, hmember⟩
    rcases mem_plan_iff.mp hmember with ⟨other, hown | ⟨hout', hbelongs⟩, -⟩ | ⟨hempty, -⟩
    · exact absurd (hown.symm.trans hfree) (Option.some_ne_none other)
    · rwa [Option.some.inj (hout.symm.trans hout')]
    · simp [isEmpty, hout] at hempty

/-- What is noted when a path is dropped. -/
def dropNote (path : String) : Note :=
  ⟨.warn, .planning, "Ignoring --outFile '" ++ path ++
    "': every matching format already has a destination"⟩

/-- A path is dropped with a note if it belongs to no format, and only then. -/
theorem planNotes_of_outFile (hout : o.outFile = some path) :
    ((∃ format, o.BelongsTo path format) ∧ o.planNotes = []) ∨
      ((∀ format, ¬ o.BelongsTo path format) ∧ o.planNotes = [dropNote path]) := by
  have hnotes : o.planNotes = if (o.outFormat? path).isNone then [dropNote path] else [] := by
    rw [planNotes, hout]
    rfl
  cases hfound : o.outFormat? path with
  | some format =>
      rw [hfound] at hnotes
      exact .inl ⟨⟨format, outFormat?_eq_some_iff.mp hfound⟩, hnotes⟩
  | none =>
      rw [hfound] at hnotes
      refine .inr ⟨?_, hnotes⟩
      intro format hbelongs
      rw [outFormat?_eq_some_iff.mpr hbelongs] at hfound
      cases hfound

end Outputs

/-- **Every requested output is planned, once.**

* There is something to write, in the order binary, text, asm.js, and no format twice.
* A format with a path of its own is written there, whatever else is given.
* The path whose ending tells the format is where one format without a path of its own is written,
  namely the one that it belongs to; if there is none, the path is dropped with a warning.
* Nothing else is written, but for the text form on standard output, which is all that is written if
  nothing is asked for. -/
theorem plan_honours_requests (o : Outputs) :
    (o.plan ≠ [] ∧ o.plan.Pairwise fun e e' => e.format.rank < e'.format.rank) ∧
    (∀ format path, o.ownPath format = some path →
      ∃ d : Destination, d.IsFor path ∧ ⟨format, d⟩ ∈ o.plan) ∧
    (∀ path, o.outFile = some path →
      (∀ format, o.BelongsTo path format ↔
        o.ownPath format = none ∧ ∃ d : Destination, d.IsFor path ∧ ⟨format, d⟩ ∈ o.plan) ∧
      ((∃! format, o.BelongsTo path format) ∧ o.planNotes = [] ∨
        (∀ format, ¬ o.BelongsTo path format) ∧ o.planNotes = [Outputs.dropNote path])) ∧
    (∀ e ∈ o.plan, (∃ path, o.Asks e.format path ∧ e.destination.IsFor path) ∨
      (o.isEmpty = true ∧ e = ⟨.text, .stdout⟩)) ∧
    (o.isEmpty = true → o.plan = [⟨.text, .stdout⟩]) ∧
    (o.outFile = none → o.planNotes = []) := by
  refine ⟨⟨o.plan_ne_nil, ?_⟩, ?_, ?_, ?_, Outputs.plan_of_isEmpty, ?_⟩
  · by_cases hempty : o.isEmpty = true
    · rw [Outputs.plan_of_isEmpty hempty]
      exact List.pairwise_singleton _ _
    · rw [Outputs.plan_of_not_isEmpty hempty]
      exact o.pairwise_rank_requested
  · intro format path hown
    have hdestination := Destination.isFor_iff.mpr (Eq.refl (Destination.ofPath path))
    refine ⟨.ofPath path, hdestination, ?_⟩
    exact Outputs.mem_plan_iff.mpr (.inl ⟨path, .own hown, hdestination⟩)
  · intro path hout
    refine ⟨fun format => Outputs.belongsTo_iff_mem_plan hout, ?_⟩
    rcases Outputs.planNotes_of_outFile hout with ⟨⟨format, hbelongs⟩, hquiet⟩ | hdropped
    · exact .inl ⟨⟨format, hbelongs, fun format' hbelongs' => hbelongs'.unique hbelongs⟩, hquiet⟩
    · exact .inr hdropped
  · exact fun e hmember => Outputs.mem_plan_iff.mp hmember
  · intro hout
    rw [Outputs.planNotes, hout]

-- The path looks like text, but text has a path already, so it is left to binary.
example :
    Outputs.plan ⟨some "a.wat", none, some "", none⟩ =
      [⟨.binary, .file "a.wat"⟩, ⟨.text, .stdout⟩] := by
  decide +kernel

end Wasmline
