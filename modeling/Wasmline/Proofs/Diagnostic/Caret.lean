import Wasmline.Proofs.Program.Reports
import Wasmline.Proofs.Source.Accounting

/-!
# Where the caret points

A diagnostic with its source line ends in a line that has a caret on it. How far the caret is set in can
be read off the rendered text (`caretPadding`), and is one less than the column (`caretPadding_render`).

Columns count bytes, and the padding is of characters. So the caret stands under the first character of
what is reported exactly if everything in front of that on the line is one byte wide, which is to say
ASCII: `caret_under_token_iff`. Blanks, and the name of a function, need not be.
-/

namespace Wasmline

open Text

/-! ### The last line of a rendered diagnostic -/

/-- The text behind the last line feed. -/
def lastLine (s : List Char) : List Char :=
  (s.reverse.takeWhile fun c => c != '\n').reverse

/-- How many characters stand between the gutter and the caret on the last line. -/
def caretPadding (rendered : String) : Nat :=
  ((((lastLine rendered.toList).dropWhile fun c => c != '|').drop 2).takeWhile fun c => c != '^').length

theorem lastLine_append {t : List Char} (s : List Char) (h : '\n' ∉ t) :
    lastLine (s ++ '\n' :: t) = t := by
  have hinside : '\n' ∉ t.reverse := fun hmember => h (List.mem_reverse.mp hmember)
  have hshape : (s ++ '\n' :: t).reverse = t.reverse ++ '\n' :: s.reverse := by simp
  rw [lastLine, hshape, (span_of_notMem hinside _).1, List.reverse_reverse]

section Render

variable {d : Diagnostic} {l : Location} {text : String}

/-- The line of the caret: a gutter, as many spaces as there are columns in front of its own, and the
caret. -/
def caretLine (l : Location) : String :=
  Diagnostic.spaces (toString l.line).length ++ " " ++ "|" ++ " " ++
    Diagnostic.spaces (l.column - 1) ++ "^"

theorem toList_caretLine (l : Location) :
    (caretLine l).toList = List.replicate ((toString l.line).length + 1) ' ' ++ '|' :: ' ' ::
      (List.replicate (l.column - 1) ' ' ++ ['^']) := by
  rw [List.replicate_succ']
  simp [caretLine, Diagnostic.spaces]

theorem exists_excerpt_eq (severity : Severity) (l : Location) (text : String) :
    ∃ above, Diagnostic.excerpt severity false l text = above ++ ("\n" ++ caretLine l) := by
  unfold Diagnostic.excerpt caretLine
  simp only [Style.paintIf, Bool.false_eq_true, if_false]
  refine ⟨"\n" ++ Diagnostic.spaces (toString l.line).length ++ " " ++ "|" ++
    "\n" ++ toString l.line ++ " " ++ "|" ++ " " ++ text, ?_⟩
  simp only [String.append_assoc]

/-- A diagnostic with its source line ends in the line of the caret. -/
theorem exists_render_eq (hplace : d.location = some l) (hline : l.lineText = some text) :
    ∃ above, d.render false = above ++ ("\n" ++ caretLine l) := by
  obtain ⟨above, hsame⟩ := exists_excerpt_eq d.severity l text
  have hplaced : Diagnostic.place d.severity false l =
      "\n" ++ Diagnostic.spaces (toString l.line).length ++ " " ++ "-->" ++ " " ++ l.display ++
        Diagnostic.excerpt d.severity false l text := by
    unfold Diagnostic.place
    rw [hline]
    rfl
  have hwhole : d.render false = d.headline false ++ Diagnostic.place d.severity false l := by
    unfold Diagnostic.render
    rw [hplace]
  rw [hwhole, hplaced, hsame]
  generalize caretLine l = last
  rw [← String.append_assoc, ← String.append_assoc]
  exact ⟨_, rfl⟩

/-- **The caret is set in by one less than the column.** -/
theorem caretPadding_render (hplace : d.location = some l) (hline : l.lineText = some text) :
    caretPadding (d.render false) = l.column - 1 := by
  obtain ⟨above, hwhole⟩ := exists_render_eq hplace hline
  have hshape : (d.render false).toList = above.toList ++ '\n' :: (caretLine l).toList := by
    rw [hwhole, String.toList_append, String.toList_append]
    rfl
  have hother : ∀ c ≠ ' ', ∀ n, c ∉ List.replicate n ' ' := by
    intro c hne n hmember
    exact hne (List.eq_of_mem_replicate hmember)
  have hunbroken : '\n' ∉ (caretLine l).toList := by simp [toList_caretLine]
  rw [caretPadding, hshape, lastLine_append _ hunbroken, toList_caretLine,
    (span_of_notMem (hother '|' (by decide) _) _).2, List.drop_succ_cons, List.drop_succ_cons,
    List.drop_zero, (span_of_notMem (hother '^' (by decide) _) _).1, List.length_replicate]

end Render

/-! ### Bytes and characters -/

theorem utf8Size_cons (c : Char) (s : List Char) :
    utf8Size (c :: s) = c.utf8Size + utf8Size s := rfl

theorem length_le_utf8Size (s : List Char) : s.length ≤ utf8Size s := by
  induction s with
  | nil => exact Nat.zero_le _
  | cons c s ih =>
      have := c.utf8Size_pos
      rw [utf8Size_cons, List.length_cons]
      omega

/-- A text has as many bytes as characters exactly if it is ASCII. -/
theorem utf8Size_eq_length_iff (s : List Char) :
    utf8Size s = s.length ↔ ∀ c ∈ s, c.toNat < 128 := by
  induction s with
  | nil => exact iff_of_true rfl (fun c hmember => absurd hmember List.not_mem_nil)
  | cons c s ih =>
      have hwide := c.utf8Size_pos
      have hrest := length_le_utf8Size s
      have hascii : c.utf8Size = 1 ↔ c.toNat < 128 := by
        rw [Char.utf8Size_eq_one_iff, UInt32.le_iff_toNat_le]
        exact Nat.lt_succ_iff.symm
      rw [utf8Size_cons, List.length_cons, List.forall_mem_cons, ← ih, ← hascii]
      omega

/-! ### What a diagnostic is about -/

namespace Diagnostic

/-- The diagnostic is about the body of a function, and not about a line as a whole. -/
def isAboutBody (d : Diagnostic) : Bool :=
  ["TS1006", "TS1109", "TS2304"].contains d.code

/-- A line is cut right in front of what the diagnostic is about. -/
def IsAbout (d : Diagnostic) (front rest : List Char) : Prop :=
  ∃ aim, Leads front rest aim ∧ (aim = .statement ↔ d.isAboutBody = false)

theorem IsAbout.unique {d : Diagnostic} {front rest front' rest' : List Char}
    (h : d.IsAbout front rest) (h' : d.IsAbout front' rest')
    (hsame : front ++ rest = front' ++ rest') : front = front' := by
  obtain ⟨aim, hleads, hkind⟩ := h
  obtain ⟨aim', hleads', hkind'⟩ := h'
  exact (hleads.unique hleads' hsame (hkind.trans hkind'.symm)).1

end Diagnostic

/-- A location that marks something shows a line, and its column is behind what stands in front of the
thing. -/
theorem Location.Marks.exists_cut {l : Location} {text : String} {aim : Aim} (h : l.Marks text aim)
    {shown : String} (hline : l.lineText = some shown) :
    ∃ front rest, shown.toList = front ++ rest ∧ Leads front rest aim ∧
      l.column = utf8Size front + 1 := by
  obtain ⟨i, raw, offset, -, ⟨front, rest, rfl, hleads, rfl⟩, -, hcolumn, hshows⟩ := h
  obtain rfl := Option.some.inj (hshows.symm.trans hline)
  exact ⟨front, rest, String.toList_ofList, hleads, hcolumn⟩

/-- What is reported while a text is read marks what it is about, if it shows a line. -/
theorem marks_of_mem_diagnostics {path text : String} {d : Diagnostic} {l : Location} {shown : String}
    (hmember : d ∈ (ParsedFile.parse path text).diagnostics) (hplace : d.location = some l)
    (hline : l.lineText = some shown) :
    ∃ aim, l.Marks text aim ∧ (aim = .statement ↔ d.isAboutBody = false) := by
  rw [ParsedFile.diagnostics_parse] at hmember
  split at hmember
  · -- the report that a file is empty shows no line
    obtain rfl := List.mem_singleton.mp hmember
    obtain rfl := Option.some.inj hplace
    exact absurd hline.symm (Option.some_ne_none shown)
  · rw [← ParsedFile.filterMap_diagnostic?] at hmember
    obtain ⟨numbered, hinside, hread⟩ := List.mem_filterMap.mp hmember
    obtain ⟨_, hlocation, -, -, ⟨hcode, hmarks⟩ | ⟨body, _, -, -, hcode, hmarks⟩⟩ :=
      marks_of_diagnostic? hinside hread
    · obtain rfl := Option.some.inj (hplace.symm.trans hlocation)
      exact ⟨_, hmarks, by simp [Diagnostic.isAboutBody, hcode]⟩
    · obtain rfl := Option.some.inj (hplace.symm.trans hlocation)
      refine ⟨_, hmarks, ?_⟩
      rcases hcode with hcode | hcode <;> simp [Diagnostic.isAboutBody, hcode]

/-- What is reported about declarations that were read marks what it is about. -/
theorem marks_of_mem_reports {sources : List (String × String)} {d : Diagnostic} {l : Location}
    (hmember : d ∈ Lowered.reports (sources.map fun s => ParsedFile.parse s.1 s.2))
    (hplace : d.location = some l) :
    ∃ s ∈ sources, ∃ aim, l.Marks s.2 aim ∧ (aim = .statement ↔ d.isAboutBody = false) := by
  obtain ⟨declaration, hdeclared, habout⟩ := Linked.exists_declaration_of_mem_reports hmember
  obtain ⟨file, hread, hdeclared⟩ := List.mem_flatMap.mp hdeclared
  obtain ⟨s, hsource, rfl⟩ := List.mem_map.mp hread
  obtain ⟨-, hstatement, body, -, hmarks⟩ := marks_of_mem_functions hdeclared
  rcases habout with ⟨hcode, hlocation⟩ | ⟨hcode, hlocation⟩
  · obtain rfl := Option.some.inj (hplace.symm.trans hlocation)
    refine ⟨s, hsource, _, hstatement, ?_⟩
    rcases hcode with hcode | hcode <;> simp [Diagnostic.isAboutBody, hcode]
  · obtain rfl := Option.some.inj (hplace.symm.trans hlocation)
    exact ⟨s, hsource, _, hmarks, by simp [Diagnostic.isAboutBody, hcode]⟩

/-- **The caret points at what is reported exactly if the line is ASCII up to there.** This is so for
every diagnostic with a source line, of those made while source texts are read and of those made about
the program they are. Such a line can be cut in front of what is reported, and however it is cut there,
the caret is set in by as many characters as there are bytes in front of the cut. -/
theorem caret_under_token_iff (sources : List (String × String)) (options : CompileOptions)
    {d : Diagnostic} {l : Location} {shown : String}
    (hreported : (∃ s ∈ sources, d ∈ (ParsedFile.parse s.1 s.2).diagnostics) ∨
      d ∈ (Lowered.ofFiles (sources.map fun s => ParsedFile.parse s.1 s.2) options).diagnostics)
    (hplace : d.location = some l) (hline : l.lineText = some shown) :
    (∃ front rest, shown.toList = front ++ rest ∧ d.IsAbout front rest) ∧
      ∀ front rest, shown.toList = front ++ rest → d.IsAbout front rest →
        caretPadding (d.render false) = utf8Size front ∧
        (caretPadding (d.render false) = front.length ↔ ∀ c ∈ front, c.toNat < 128) := by
  have hmarks : ∃ text aim, l.Marks text aim ∧ (aim = .statement ↔ d.isAboutBody = false) := by
    rcases hreported with ⟨s, -, hmember⟩ | hmember
    · exact ⟨s.2, marks_of_mem_diagnostics hmember hplace hline⟩
    · obtain ⟨s, -, hmarks⟩ := marks_of_mem_reports hmember hplace
      exact ⟨s.2, hmarks⟩
  obtain ⟨text, aim, hmarks, hkind⟩ := hmarks
  obtain ⟨front, rest, hcut, hleads, hcolumn⟩ := hmarks.exists_cut hline
  refine ⟨⟨front, rest, hcut, aim, hleads, hkind⟩, ?_⟩
  intro front' rest' hcut' habout
  obtain rfl : front = front' :=
    Diagnostic.IsAbout.unique ⟨aim, hleads, hkind⟩ habout (hcut.symm.trans hcut')
  have hpadding : caretPadding (d.render false) = utf8Size front := by
    rw [caretPadding_render hplace hline, hcolumn, Nat.add_sub_cancel]
  exact ⟨hpadding, hpadding ▸ utf8Size_eq_length_iff front⟩

/-- The report on a line behind an ideographic space, which is one character of three bytes. -/
def wideIndentReport : Diagnostic :=
  ⟨.error, "TS1128", "Declaration or statement expected.", some ⟨"main.ts", 1, 4, some "\u3000let x;"⟩⟩

/-- One character stands in front of the line's first word, and the caret is set in by three. -/
theorem wideIndent_caret_astray :
    wideIndentReport ∈ (ParsedFile.parse "main" "\u3000let x;").diagnostics ∧
      wideIndentReport.IsAbout ['\u3000'] "let x;".toList ∧
      wideIndentReport.location.bind Location.lineText =
        some (String.ofList (['\u3000'] ++ "let x;".toList)) ∧
      caretPadding (wideIndentReport.render false) ≠ ['\u3000'].length := by
  have habout : Leads ['\u3000'] "let x;".toList .statement :=
    .statement (List.forall_mem_singleton.mpr (by decide)) (by decide : isBlank 'l' = false)
  refine ⟨by decide +kernel, ⟨_, habout, iff_of_true rfl (by decide)⟩, by decide, by decide +kernel⟩

/-- The report on a call behind a tab, in a line of ASCII. -/
def tabIndentReport : Diagnostic :=
  ⟨.error, "TS2304", "Cannot find name 'gone'.",
    some ⟨"main.ts", 1, 39, some "\texport function main(): i32 \x7b return gone(); \x7d"⟩⟩

theorem tabIndent_caret_in_place :
    ∃ front rest, "\texport function main(): i32 \x7b return gone(); \x7d".toList = front ++ rest ∧
      tabIndentReport.IsAbout front rest ∧
      caretPadding (tabIndentReport.render false) = front.length := by
  have hreported : tabIndentReport ∈ (Lowered.ofFiles
      ([("main", "\texport function main(): i32 \x7b return gone(); \x7d")].map fun s =>
        ParsedFile.parse s.1 s.2) ⟨true, true⟩).diagnostics := by decide +kernel
  have hascii : "\texport function main(): i32 \x7b return gone(); \x7d".toList.all
      (fun c => decide (c.toNat < 128)) = true := by decide
  obtain ⟨⟨front, rest, hcut, habout⟩, hpadding⟩ :=
    caret_under_token_iff _ ⟨true, true⟩ (.inr hreported) rfl rfl
  refine ⟨front, rest, hcut, habout, (hpadding front rest hcut habout).2.mpr ?_⟩
  intro c hmember
  exact of_decide_eq_true (List.all_eq_true.mp hascii c (hcut ▸ List.mem_append_left rest hmember))

end Wasmline
