import Wasmline.Proofs.Source.Placement

/-!
# Every line is accounted for

A line that is neither blank nor a comment adds one thing to what is read from its file: an import, a
function or an error (`contribution?_isSome_iff`). The three lists of a parsed file are what the lines
add, sorted by kind and otherwise in order. So their lengths add up to the number of such lines, and a
file has the report of being empty exactly if it has no such line.

What has a place is placed where it stands (`Location.Marks`): the location has the number of a line and
that line itself, and its column counts the bytes in front of the line's first character that is not
blank, or in front of the body. Numbers increase from one function to the next, and from one error to
the next, since no line adds two of them.
-/

namespace Wasmline

open Text Line

/-! ### What a line adds -/

/-- What a line adds to what is read from its file. -/
inductive Contribution where
  | imported (entry : Import)
  | declared (function : Declaration)
  | refused (error : Diagnostic)

namespace Contribution

def imported? : Contribution → Option Import
  | imported entry => some entry
  | _ => none

def declared? : Contribution → Option Declaration
  | declared function => some function
  | _ => none

def refused? : Contribution → Option Diagnostic
  | refused error => some error
  | _ => none

/-- Whatever is added is added to one of the three lists. -/
theorem length_add_length_add_length (cs : List Contribution) :
    (cs.filterMap imported?).length + (cs.filterMap declared?).length +
      (cs.filterMap refused?).length = cs.length := by
  induction cs with
  | nil => rfl
  | cons c cs ih =>
      cases c <;> simp [List.filterMap_cons, imported?, declared?, refused?] <;> omega

end Contribution

instance (line : List Char) : Decidable (Skipped line) :=
  inferInstanceAs (Decidable (line = [] ∨ "//".toList <+: line))

namespace NumberedLine

/-- What the line adds to what is read from the file known by `path`. -/
def contribution? (path : String) (l : NumberedLine) : Option Contribution :=
  (l.import? path).map .imported <|> (l.function? (ParsedFile.fileName path)).map .declared <|>
    (l.diagnostic? (ParsedFile.fileName path)).map .refused

variable {path text : String} {l : NumberedLine}

theorem mem_all_iff :
    l ∈ all text ↔ ∃ i, (Text.lines text.toList)[i]? = some l.text ∧ l.number = i + 1 ∧
      l.reading = .ofLine l.text := by
  rw [all, List.mem_iff_getElem?]
  refine exists_congr fun i => ?_
  rw [List.getElem?_mapIdx, Option.map_eq_some_iff]
  constructor
  · rintro ⟨raw, hline, rfl⟩
    exact ⟨hline, rfl, rfl⟩
  · rintro ⟨hline, hnumber, hreading⟩
    refine ⟨l.text, hline, ?_⟩
    rw [← hnumber, ← hreading]

/-- A line is numbered higher than the lines in front of it. -/
theorem pairwise_number_all (text : String) :
    (all text).Pairwise fun l m => l.number < m.number := by
  rw [List.pairwise_iff_getElem]
  intro i j hi hj hlt
  simp only [all, List.getElem_mapIdx]
  omega

theorem reading_eq_skipped_iff (h : l.reading = .ofLine l.text) :
    l.reading = .skipped ↔ Skipped (trim l.text) := by
  rw [h]
  constructor
  · intro hskipped
    by_contra hkept
    rw [ofLine_of_not_skipped hkept] at hskipped
    split at hskipped
    · cases hskipped
    · split at hskipped
      · split at hskipped <;> cases hskipped
      · cases hskipped
  · exact ofLine_of_skipped

/-- **A line adds one thing, unless it is skipped.** -/
theorem contribution?_isSome_iff (h : l.reading = .ofLine l.text) :
    (l.contribution? path).isSome = true ↔ ¬ Skipped (trim l.text) := by
  rw [← reading_eq_skipped_iff h]
  unfold contribution? import? function? diagnostic?
  cases l.reading <;> simp

theorem contribution?_bind_imported? (l : NumberedLine) :
    (l.contribution? path).bind Contribution.imported? = l.import? path := by
  unfold contribution? import? function? diagnostic?
  cases l.reading <;> rfl

theorem contribution?_bind_declared? (l : NumberedLine) :
    (l.contribution? path).bind Contribution.declared? = l.function? (ParsedFile.fileName path) := by
  unfold contribution? import? function? diagnostic?
  cases l.reading <;> rfl

theorem contribution?_bind_refused? (l : NumberedLine) :
    (l.contribution? path).bind Contribution.refused? = l.diagnostic? (ParsedFile.fileName path) := by
  unfold contribution? import? function? diagnostic?
  cases l.reading <;> rfl

end NumberedLine

/-- What the lines of a text add, in order. -/
def contributions (path text : String) : List Contribution :=
  (NumberedLine.all text).filterMap (NumberedLine.contribution? path)

/-- How many lines of a text are neither blank nor a comment. -/
def keptLines (text : String) : Nat :=
  (Text.lines text.toList).countP fun raw => decide (¬ Skipped (trim raw))

theorem length_contributions (path text : String) :
    (contributions path text).length = keptLines text := by
  unfold contributions keptLines
  rw [List.length_filterMap_eq_countP, ← NumberedLine.map_text_all, List.countP_map]
  refine List.countP_congr fun l hmember => ?_
  rw [NumberedLine.contribution?_isSome_iff (NumberedLine.reading_of_mem hmember)]
  simp

/-! ### The lists of a parsed file -/

namespace ParsedFile

variable (path text : String)

theorem imports_parse :
    (parse path text).imports = (contributions path text).filterMap Contribution.imported? := by
  rw [contributions, List.filterMap_filterMap]
  exact List.filterMap_congr fun l _ => (l.contribution?_bind_imported?).symm

theorem functions_parse :
    (parse path text).functions = (contributions path text).filterMap Contribution.declared? := by
  rw [contributions, List.filterMap_filterMap]
  exact List.filterMap_congr fun l _ => (l.contribution?_bind_declared?).symm

/-- What is reported about single lines. -/
theorem filterMap_diagnostic? :
    (NumberedLine.all text).filterMap (NumberedLine.diagnostic? (fileName path)) =
      (contributions path text).filterMap Contribution.refused? := by
  rw [contributions, List.filterMap_filterMap]
  exact List.filterMap_congr fun l _ => (l.contribution?_bind_refused?).symm

/-- The report that a file is empty is made if no line adds anything. -/
theorem diagnostics_parse :
    (parse path text).diagnostics =
      if keptLines text = 0 then [emptyReport (fileName path)]
      else (contributions path text).filterMap Contribution.refused? := by
  have hlengths := Contribution.length_add_length_add_length (contributions path text)
  rw [length_contributions] at hlengths
  have hcondition : ((parse path text).imports.isEmpty && (parse path text).functions.isEmpty &&
      ((contributions path text).filterMap Contribution.refused?).isEmpty) =
        decide (keptLines text = 0) := by
    rw [imports_parse, functions_parse, Bool.eq_iff_iff]
    simp only [Bool.and_eq_true, List.isEmpty_iff_length_eq_zero, decide_eq_true_eq]
    omega
  rw [← filterMap_diagnostic?] at hcondition ⊢
  have hwhole : (parse path text).diagnostics =
      if ((parse path text).imports.isEmpty && (parse path text).functions.isEmpty &&
        ((NumberedLine.all text).filterMap (NumberedLine.diagnostic? (fileName path))).isEmpty)
      then [emptyReport (fileName path)]
      else (NumberedLine.all text).filterMap (NumberedLine.diagnostic? (fileName path)) := rfl
  rw [hwhole, hcondition]
  simp only [decide_eq_true_eq]

end ParsedFile

/-! ### Places -/

/-- The location has the number of a line of the text and shows that line, and its column is behind the
bytes that stand in front of the thing in question. -/
def Location.Marks (l : Location) (text : String) (aim : Aim) : Prop :=
  ∃ i raw offset, (Text.lines text.toList)[i]? = some raw ∧ StandsAt raw aim offset ∧
    l.line = i + 1 ∧ l.column = offset + 1 ∧ l.lineText = some (String.ofList raw)

theorem NumberedLine.marks_locate {text : String} {l : NumberedLine} (hmember : l ∈ all text)
    (file : String) {aim : Aim} {offset : Nat} (hstands : StandsAt l.text aim offset) :
    (l.locate file offset).Marks text aim := by
  obtain ⟨i, hline, hnumber, -⟩ := mem_all_iff.mp hmember
  exact ⟨i, l.text, offset, hline, hstands, hnumber, rfl, rfl⟩

/-- A body is refused because it is no expression or because its number is too large. -/
theorem finding_of_readBody {s : List Char} {finding : Finding} (h : readBody s = .error finding) :
    finding = .expressionExpected ∨ finding = .literalTooWide (String.ofList s) := by
  cases hread : digits? s with
  | some parts =>
      simp only [readBody, hread] at h
      split at h
      · cases h
      · cases h
        exact .inr rfl
  | none =>
      simp only [readBody, hread] at h
      split at h
      · cases h
      · cases h
        exact .inl rfl

/-- A function is placed at its line, and its body where it stands in it. -/
theorem marks_of_mem_functions {path text : String} {d : Declaration}
    (hmember : d ∈ (ParsedFile.parse path text).functions) :
    d.bodyLocation.line = d.location.line ∧ d.location.Marks text .statement ∧
      ∃ body, readBody body = .ok d.body ∧ d.bodyLocation.Marks text (.body body) := by
  obtain ⟨l, hline, hread⟩ := List.mem_filterMap.mp hmember
  have hreading := NumberedLine.reading_of_mem hline
  unfold NumberedLine.function? at hread
  split at hread
  · rename_i hsame
    cases hread
    obtain ⟨hstatement, body, hok, hstands⟩ := ofLine_eq_function (hreading.symm.trans hsame)
    exact ⟨rfl, NumberedLine.marks_locate hline _ hstatement, body, hok,
      NumberedLine.marks_locate hline _ hstands⟩
  · cases hread

/-- What is wrong with a line is an error, and is placed at the line or at the body in it. -/
theorem marks_of_diagnostic? {file text : String} {l : NumberedLine} {d : Diagnostic}
    (hline : l ∈ NumberedLine.all text) (hread : l.diagnostic? file = some d) :
    ∃ place, d.location = some place ∧ place.line = l.number ∧ d.severity = .error ∧
      ((d.code = "TS1128" ∧ place.Marks text .statement) ∨
        ∃ body finding, readBody body = .error finding ∧ d = finding.diagnose place ∧
          (d.code = "TS1006" ∨ d.code = "TS1109") ∧ place.Marks text (.body body)) := by
  have hreading := NumberedLine.reading_of_mem hline
  unfold NumberedLine.diagnostic? at hread
  split at hread
  · rename_i finding offset hsame
    cases hread
    refine ⟨_, rfl, rfl, ?_⟩
    rcases ofLine_eq_fault (hreading.symm.trans hsame) with ⟨rfl, hstands⟩ | ⟨body, hwrong, hstands⟩
    · exact ⟨rfl, .inl ⟨rfl, NumberedLine.marks_locate hline file hstands⟩⟩
    · have hplace := NumberedLine.marks_locate hline file hstands
      rcases finding_of_readBody hwrong with rfl | rfl
      · exact ⟨rfl, .inr ⟨body, _, hwrong, rfl, .inr rfl, hplace⟩⟩
      · exact ⟨rfl, .inr ⟨body, _, hwrong, rfl, .inl rfl, hplace⟩⟩
  · cases hread

/-- The functions stand on lines of rising numbers. -/
theorem pairwise_line_functions (path text : String) :
    (ParsedFile.parse path text).functions.Pairwise fun d e => d.location.line < e.location.line := by
  refine List.pairwise_filterMap.mpr ((NumberedLine.pairwise_number_all text).imp ?_)
  intro l m hlt d hd e he
  unfold NumberedLine.function? at hd he
  split at hd
  · split at he
    · cases hd
      cases he
      exact hlt
    · cases he
  · cases hd

/-- What is reported about lines is reported for rising numbers. -/
theorem pairwise_line_refused (path text : String) :
    (((contributions path text).filterMap Contribution.refused?).filterMap
      Diagnostic.location).Pairwise fun l m => l.line < m.line := by
  rw [← ParsedFile.filterMap_diagnostic?, List.filterMap_filterMap]
  refine List.pairwise_filterMap.mpr
    ((NumberedLine.pairwise_number_all text).imp_of_mem ?_)
  intro l m hl hm hlt place hread place' hread'
  obtain ⟨d, hd, hlocation⟩ := Option.bind_eq_some_iff.mp hread
  obtain ⟨e, he, hlocation'⟩ := Option.bind_eq_some_iff.mp hread'
  obtain ⟨_, hsame, hnumber, -⟩ := marks_of_diagnostic? hl hd
  obtain ⟨_, hsame', hnumber', -⟩ := marks_of_diagnostic? hm he
  cases hlocation.symm.trans hsame
  cases hlocation'.symm.trans hsame'
  rw [hnumber, hnumber']
  exact hlt

/-- **Every line is accounted for, and what comes of it is placed in it.** A line that is neither blank
nor a comment adds one import, one function or one error, and any other line nothing; the lists of the
parsed file are what the lines add. So there are as many imports, functions and diagnostics as there are
such lines, or, if there are none, the one report that the file is empty. Functions stand on lines of
rising numbers, and so do diagnostics. Every location of a function or an error shows the line of its
number, and its column counts the bytes of that line in front of the first character that is not blank,
or in front of the body. -/
theorem parse_accounts_for_every_line (path text : String) :
    ((NumberedLine.all text).map NumberedLine.text = Text.lines text.toList ∧
      ∀ l ∈ NumberedLine.all text,
        ((l.contribution? path).isSome = true ↔ ¬ Skipped (trim l.text)) ∧
        ∀ error, l.contribution? path = some (.refused error) → error.severity = .error) ∧
    ((ParsedFile.parse path text).imports =
        (contributions path text).filterMap Contribution.imported? ∧
      (ParsedFile.parse path text).functions =
        (contributions path text).filterMap Contribution.declared?) ∧
    (0 < keptLines text →
      (ParsedFile.parse path text).diagnostics =
          (contributions path text).filterMap Contribution.refused? ∧
        (ParsedFile.parse path text).imports.length + (ParsedFile.parse path text).functions.length +
          (ParsedFile.parse path text).diagnostics.length = keptLines text) ∧
    (keptLines text = 0 → ∃ report, ParsedFile.parse path text = ⟨path, [], [], [report]⟩ ∧
      report.severity = .info ∧ report.code = "TS1010") ∧
    ((ParsedFile.parse path text).functions.Pairwise
        (fun d e => d.location.line < e.location.line) ∧
      (∀ d ∈ (ParsedFile.parse path text).diagnostics, d.location.isSome = true) ∧
      ((ParsedFile.parse path text).diagnostics.filterMap Diagnostic.location).Pairwise
        (fun l m => l.line < m.line)) ∧
    (∀ d ∈ (ParsedFile.parse path text).functions,
      d.bodyLocation.line = d.location.line ∧ d.location.Marks text .statement ∧
        ∃ body, readBody body = .ok d.body ∧ d.bodyLocation.Marks text (.body body)) ∧
    ∀ d ∈ (ParsedFile.parse path text).diagnostics, d.severity = .error →
      ∃ place, d.location = some place ∧
        ((d.code = "TS1128" ∧ place.Marks text .statement) ∨
          ∃ body finding, readBody body = .error finding ∧ d = finding.diagnose place ∧
            (d.code = "TS1006" ∨ d.code = "TS1109") ∧ place.Marks text (.body body)) := by
  have himports := ParsedFile.imports_parse path text
  have hfunctions := ParsedFile.functions_parse path text
  have hdiagnostics := ParsedFile.diagnostics_parse path text
  have hlengths := Contribution.length_add_length_add_length (contributions path text)
  rw [length_contributions] at hlengths
  have hrefused : ∀ d ∈ (contributions path text).filterMap Contribution.refused?,
      ∃ l ∈ NumberedLine.all text, l.diagnostic? (ParsedFile.fileName path) = some d := by
    intro d hmember
    rw [← ParsedFile.filterMap_diagnostic?] at hmember
    exact List.mem_filterMap.mp hmember
  refine ⟨⟨NumberedLine.map_text_all text, ?_⟩, ⟨himports, hfunctions⟩, ?_, ?_,
    ⟨pairwise_line_functions path text, ?_, ?_⟩, fun d => marks_of_mem_functions, ?_⟩
  · intro l hmember
    refine ⟨NumberedLine.contribution?_isSome_iff (NumberedLine.reading_of_mem hmember), ?_⟩
    intro error hadded
    have hread : l.diagnostic? (ParsedFile.fileName path) = some error := by
      rw [← NumberedLine.contribution?_bind_refused?, hadded]
      rfl
    obtain ⟨_, -, -, hseverity, -⟩ := marks_of_diagnostic? hmember hread
    exact hseverity
  · intro hkept
    rw [if_neg (Nat.ne_of_gt hkept)] at hdiagnostics
    refine ⟨hdiagnostics, ?_⟩
    rw [himports, hfunctions, hdiagnostics, hlengths]
  · intro hnone
    rw [if_pos hnone] at hdiagnostics
    refine ⟨ParsedFile.emptyReport (ParsedFile.fileName path), ?_, rfl, rfl⟩
    have hnoImports : (ParsedFile.parse path text).imports = [] := by
      rw [himports, ← List.length_eq_zero_iff]
      omega
    have hnoFunctions : (ParsedFile.parse path text).functions = [] := by
      rw [hfunctions, ← List.length_eq_zero_iff]
      omega
    rw [← hnoImports, ← hnoFunctions, ← hdiagnostics]
    rfl
  · intro d hmember
    rw [hdiagnostics] at hmember
    split at hmember
    · rw [List.mem_singleton.mp hmember]
      rfl
    · obtain ⟨l, hline, hread⟩ := hrefused d hmember
      obtain ⟨_, hplace, -⟩ := marks_of_diagnostic? hline hread
      rw [hplace]
      rfl
  · rw [hdiagnostics]
    split
    · exact List.pairwise_singleton _ _
    · exact pairwise_line_refused path text
  · intro d hmember herror
    rw [hdiagnostics] at hmember
    split at hmember
    · rw [List.mem_singleton.mp hmember] at herror
      cases herror
    · obtain ⟨l, hline, hread⟩ := hrefused d hmember
      obtain ⟨place, hlocation, -, -, hmarks⟩ := marks_of_diagnostic? hline hread
      exact ⟨place, hlocation, hmarks⟩

/-- A comment and an import behind blanks of several bytes, a body of no characters on a line that ends in
a carriage return, and a line that is nothing. -/
def gappyText : String :=
  "\u3000// note\r\n\u00a0import './a'\n\tfunction a\u00e9(): i32 \x7b return  ;\x7d\r\nlet x"

/-- The error for the body that is not there. -/
def gappyError : Diagnostic :=
  ⟨.error, "TS1109", "Expression expected.",
    some ⟨"main.ts", 3, 32, some "\tfunction a\u00e9(): i32 \x7b return  ;\x7d"⟩⟩

theorem gappyText_accounted :
    (ParsedFile.parse "main" gappyText).imports.length +
        (ParsedFile.parse "main" gappyText).functions.length +
        (ParsedFile.parse "main" gappyText).diagnostics.length = 3 ∧
      gappyError ∈ (ParsedFile.parse "main" gappyText).diagnostics ∧
      ∃ place body, gappyError.location = some place ∧ place.Marks gappyText (.body body) := by
  have hmember : gappyError ∈ (ParsedFile.parse "main" gappyText).diagnostics := by decide +kernel
  have hkept : keptLines gappyText = 3 := by decide +kernel
  obtain ⟨-, -, hcounts, -, -, -, herrors⟩ := parse_accounts_for_every_line "main" gappyText
  obtain ⟨-, htotal⟩ := hcounts (by rw [hkept]; decide)
  obtain ⟨place, hlocation, ⟨hcode, -⟩ | ⟨body, _, -, -, -, hmarks⟩⟩ := herrors _ hmember rfl
  · exact absurd hcode (by decide)
  · exact ⟨htotal.trans hkept, hmember, place, body, hlocation, hmarks⟩

end Wasmline
