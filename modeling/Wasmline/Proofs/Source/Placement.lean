import Wasmline.Proofs.Source.Recognition

/-!
# Where things stand in a line

Two places in a line are reported: where the line begins, blanks apart, and where the body of the
function on it begins. Both are given by what stands in front of them, and an offset counts the bytes of
that.

A line can have the form of a function although nobody can make sense of its body. A `FunctionFrame`
holds the pieces of such a line around whatever text the body is. Blanks and a semicolon could be counted
to either side, so the frame says which text is the body: blanks in front of it belong to the header
(`flush`), and it is as short as it can be (`shortest`). With this a line has one body, and reading a
line finds it (`function?_eq_some_iff_frame`).

`Leads` relates the two parts of a line to the thing that the second part begins with. `Leads.unique` says
that there is one way to cut a line for each kind of thing, and `ofLine_eq_function` and `ofLine_eq_fault`
that the offsets of a reading are those cuts.
-/

namespace Wasmline

open Text Line

/-! ### Bodies that need not make sense -/

/-- What stands behind a body: `ws* [;] ws*` and the closing brace. -/
def endingText (beforeSemicolon : Blanks) (semicolon : Bool) (beforeBrace : Blanks) : List Char :=
  beforeSemicolon.text ++ (semicolonText semicolon ++ (beforeBrace.text ++ ['\x7d']))

/-- The line of a function, whatever its body. -/
structure FunctionFrame where
  /-- The blanks behind `export`, if it is there. -/
  afterExport : Option Gap
  header : Header
  body : List Char
  beforeSemicolon : Blanks
  semicolon : Bool
  beforeBrace : Blanks
  /-- No blank in front of the body is left to it. -/
  flush : Flush (body ++ endingText beforeSemicolon semicolon beforeBrace)
  /-- No shorter text could be the body. -/
  shortest : ∀ body' w semicolon' w',
    body ++ endingText beforeSemicolon semicolon beforeBrace = body' ++ endingText w semicolon' w' →
      body.length ≤ body'.length

namespace FunctionFrame

/-- What stands in front of the body. -/
def front (frame : FunctionFrame) : List Char :=
  FunctionSyntax.exportText frame.afterExport ++ frame.header.text

/-- What stands behind the body. -/
def ending (frame : FunctionFrame) : List Char :=
  endingText frame.beforeSemicolon frame.semicolon frame.beforeBrace

def text (frame : FunctionFrame) : List Char :=
  frame.front ++ (frame.body ++ frame.ending)

/-- The parts that a reader is to find. -/
def parts (frame : FunctionFrame) : FunctionLine where
  exported := frame.afterExport.isSome
  name := frame.header.name.text
  front := frame.front
  body := frame.body

theorem text_eq (frame : FunctionFrame) :
    frame.text = FunctionSyntax.exportText frame.afterExport ++
      (frame.header.text ++ (frame.body ++ frame.ending)) :=
  List.append_assoc _ _ _

end FunctionFrame

theorem endingText_eq (w : Blanks) (semicolon : Bool) (w' : Blanks) :
    endingText w semicolon w' = w.text ++ (semicolonText semicolon ++ w'.text) ++ ['\x7d'] := by
  simp only [endingText, List.append_assoc]

theorem isPrefix_trimEnd (s : List Char) : trimEnd s <+: s := by
  obtain ⟨w, hsame, -⟩ := exists_trimEnd_append s
  exact ⟨w, hsame.symm⟩

theorem isPrefix_bodyText_trimEnd (s : List Char) : bodyText s <+: trimEnd s := by
  simp only [bodyText]
  split
  · rename_i t hdropped
    refine (isPrefix_trimEnd t).trans ⟨[';'], ?_⟩
    exact (Path.dropSuffix?_eq_some hdropped).symm
  · exact List.prefix_rfl

/-- However the text up to the closing brace is split, the body that is read is no longer. -/
theorem isPrefix_bodyText (body : List Char) (w : Blanks) (semicolon : Bool) (w' : Blanks) :
    bodyText (body ++ (w.text ++ (semicolonText semicolon ++ w'.text))) <+: body := by
  have htrimmed : trimEnd (body ++ (w.text ++ (semicolonText semicolon ++ w'.text))) =
      trimEnd (body ++ w.text ++ semicolonText semicolon) := by
    rw [← List.append_assoc, ← List.append_assoc, trimEnd_append_blanks]
  cases semicolon with
  | false =>
      refine (isPrefix_bodyText_trimEnd _).trans ?_
      rw [htrimmed, semicolonText, if_neg (by decide), List.append_nil, trimEnd_append_blanks]
      exact isPrefix_trimEnd body
  | true =>
      -- the semicolon comes off, and the blanks in front of it after that
      have hlast : trimEnd (body ++ w.text ++ semicolonText true) = body ++ w.text ++ [';'] :=
        trimEnd_concat _ (by decide)
      simp only [bodyText]
      rw [htrimmed, hlast, Path.dropSuffix?_append]
      simp only [trimEnd_append_blanks]
      exact isPrefix_trimEnd body

/-- A body that is found in the text up to the closing brace is as short as it can be. -/
theorem shortest_of_bodyText {body : List Char} {w : Blanks} {semicolon : Bool} {w' : Blanks}
    (hread : bodyText (body ++ (w.text ++ (semicolonText semicolon ++ w'.text))) = body) :
    ∀ body' v semicolon' v',
      body ++ endingText w semicolon w' = body' ++ endingText v semicolon' v' →
        body.length ≤ body'.length := by
  intro body' v semicolon' v' hsplit
  rw [endingText_eq, endingText_eq, ← List.append_assoc body, ← List.append_assoc body',
    List.append_left_inj] at hsplit
  rw [← hread, hsplit]
  exact (isPrefix_bodyText body' v semicolon' v').length_le

/-- The text up to the closing brace has one shortest body, and that is the one which is read. -/
theorem FunctionFrame.bodyText_eq (frame : FunctionFrame) :
    bodyText (frame.body ++ (frame.beforeSemicolon.text ++
      (semicolonText frame.semicolon ++ frame.beforeBrace.text))) = frame.body := by
  have hshort := isPrefix_bodyText frame.body frame.beforeSemicolon frame.semicolon frame.beforeBrace
  generalize hwhole : frame.body ++ (frame.beforeSemicolon.text ++
    (semicolonText frame.semicolon ++ frame.beforeBrace.text)) = inner at hshort ⊢
  obtain ⟨w, semicolon, w', hsplit⟩ := exists_bodyText_append inner
  refine hshort.eq_of_length (Nat.le_antisymm hshort.length_le ?_)
  apply frame.shortest _ w semicolon w'
  rw [endingText_eq, endingText_eq, ← List.append_assoc, hwhole, hsplit, List.append_assoc]
  rw [← hsplit]

/-- What stands in front of the rest of a text, by their lengths. -/
theorem take_length_sub (s rest : List Char) :
    (s ++ rest).take ((s ++ rest).length - rest.length) = s := by
  rw [List.length_append, Nat.add_sub_cancel, List.take_left' rfl]

/-- **A line is found to have the form of a function exactly if it has a frame**, and then the parts of
that frame are found. -/
theorem function?_eq_some_iff_frame {line : List Char} {f : FunctionLine} :
    Line.function? line = some f ↔ ∃ frame : FunctionFrame, frame.text = line ∧ frame.parts = f := by
  constructor
  · intro hread
    obtain ⟨afterExport, hexported, hsame⟩ := exists_exportText line
    simp only [Line.function?, Option.bind_eq_bind, Option.bind_eq_some_iff, Prod.exists] at hread
    obtain ⟨name, rest, hheader, inner, hclosed, hparts⟩ := hread
    obtain ⟨hflush, h, rfl, hsplit⟩ := header?_eq_some_iff.mp hheader
    obtain rfl := Path.dropSuffix?_eq_some hclosed
    obtain ⟨w, semicolon, w', htail⟩ := exists_bodyText_append inner
    have hwhole : inner ++ ['\x7d'] = bodyText inner ++ endingText w semicolon w' := by
      rw [endingText_eq, ← List.append_assoc, ← htail]
    have hcut : line = FunctionSyntax.exportText afterExport ++ h.text ++ (inner ++ ['\x7d']) := by
      rw [List.append_assoc, ← hsplit]
      exact hsame
    rw [hwhole] at hflush
    have hread : bodyText (bodyText inner ++ (w.text ++ (semicolonText semicolon ++ w'.text))) =
        bodyText inner := by rw [← htail]
    refine ⟨⟨afterExport, h, bodyText inner, w, semicolon, w', hflush, shortest_of_bodyText hread⟩,
      ?_, ?_⟩
    · exact (hcut.trans (congrArg _ hwhole)).symm
    · have hfront : line.take (line.length - (inner ++ ['\x7d']).length) =
          FunctionSyntax.exportText afterExport ++ h.text := by
        rw [hcut, take_length_sub]
      rw [← Option.some.inj hparts, hfront, ← hexported]
      rfl
  · rintro ⟨frame, rfl, rfl⟩
    have hheader := header?_eq_some_iff.mpr ⟨frame.flush, frame.header, rfl, rfl⟩
    have hwhole := frame.text_eq
    have hfront : frame.text.take (frame.text.length - (frame.body ++ frame.ending).length) =
        frame.front := take_length_sub _ _
    unfold FunctionFrame.ending at hwhole hfront
    rw [Line.function?, hwhole, exported?_exportText, ← hwhole]
    simp only [Option.bind_eq_bind, hheader, Option.bind_some, hfront]
    rw [endingText_eq, ← List.append_assoc, Path.dropSuffix?_append, Option.bind_some,
      frame.bodyText_eq]
    rfl

/-! ### Cutting a line -/

/-- What a place in a line is about. -/
inductive Aim where
  /-- The line as a whole. -/
  | statement
  /-- The body of the function on the line, which is this text. -/
  | body (text : List Char)

/-- A line, cut in two, has in front of the cut what comes before the thing in question, and the thing
right behind it. -/
inductive Leads : List Char → List Char → Aim → Prop
  | statement {front rest : List Char} {c : Char} (blank : ∀ b ∈ front, isBlank b = true)
      (solid : isBlank c = false) : Leads front (c :: rest) .statement
  | body (indent : Blanks) (frame : FunctionFrame) (trailing : Blanks) :
      Leads (indent.text ++ frame.front) (frame.body ++ (frame.ending ++ trailing.text))
        (.body frame.body)

/-- In the line `raw` the thing in question stands behind `offset` bytes. -/
def StandsAt (raw : List Char) (aim : Aim) (offset : Nat) : Prop :=
  ∃ front rest, raw = front ++ rest ∧ Leads front rest aim ∧ offset = utf8Size front

/-- A line is its indentation, what is left when it is trimmed, and blanks. -/
theorem exists_trim_append (raw : List Char) :
    ∃ w : Blanks, raw = raw.takeWhile isBlank ++ (trim raw ++ w.text) := by
  obtain ⟨w, hsame, hblank⟩ := exists_trimEnd_append (trimStart raw)
  refine ⟨⟨w, hblank⟩, ?_⟩
  rw [trim, ← hsame, takeWhile_append_trimStart]

/-- A text that has no blank at either end is found between blanks. -/
theorem trim_between_blanks {s : List Char} {first last : Char} {front back : List Char}
    (hstarts : s = first :: back) (hsolid : isBlank first = false)
    (hends : s = front ++ [last]) (hsolid' : isBlank last = false) (w w' : Blanks) :
    (w.text ++ (s ++ w'.text)).takeWhile isBlank = w.text ∧
      trim (w.text ++ (s ++ w'.text)) = s := by
  have hboundary : ∀ c ∈ (s ++ w'.text).head?, isBlank c = false := by
    rw [hstarts]
    exact flush_cons.mpr hsolid
  obtain ⟨htaken, hleft⟩ := span_eq_iff.mpr ⟨rfl, w.blank, hboundary⟩
  refine ⟨htaken, ?_⟩
  rw [trim, trimStart, hleft, trimEnd_append_blanks, hends, trimEnd_concat front hsolid']

/-- A frame starts with one of two letters. -/
theorem FunctionFrame.head?_text (frame : FunctionFrame) :
    frame.text.head? = some (if frame.afterExport.isSome then 'e' else 'f') := by
  have hwhole : frame.text = FunctionSyntax.exportText frame.afterExport ++
      (frame.header.text ++ (frame.body ++ frame.ending)) := List.append_assoc _ _ _
  have hfirst : "export".toList.head? = some 'e' := by decide
  rw [hwhole]
  cases frame.afterExport with
  | none => exact frame.header.head?_text_append _
  | some gap =>
      exact List.mem_head?_append_of_mem_head? (List.mem_head?_append_of_mem_head? hfirst)

/-- A frame starts with a letter and ends in a brace. -/
theorem FunctionFrame.trim_text (frame : FunctionFrame) (w w' : Blanks) :
    (w.text ++ (frame.text ++ w'.text)).takeWhile isBlank = w.text ∧
      trim (w.text ++ (frame.text ++ w'.text)) = frame.text := by
  obtain ⟨back, hstarts⟩ := List.head?_eq_some_iff.mp frame.head?_text
  have hsolid : isBlank (if frame.afterExport.isSome then 'e' else 'f') = false := by
    split <;> decide
  have hends : frame.text = frame.front ++ (frame.body ++ (frame.beforeSemicolon.text ++
      (semicolonText frame.semicolon ++ frame.beforeBrace.text))) ++ ['\x7d'] := by
    simp only [FunctionFrame.text, FunctionFrame.ending, endingText, List.append_assoc]
  exact trim_between_blanks hstarts hsolid hends (by decide) w w'

namespace Leads

variable {front rest front' rest' : List Char} {aim : Aim}

theorem front_of_statement (h : Leads front rest .statement) :
    (front ++ rest).takeWhile isBlank = front := by
  cases h with
  | statement hblank hsolid => exact (span_eq_iff.mpr ⟨rfl, hblank, flush_cons.mpr hsolid⟩).1

/-- The frame of a body is the one that is found in the line. -/
theorem front_of_body {text : List Char} (h : Leads front rest (.body text)) :
    ∃ f, Line.function? (trim (front ++ rest)) = some f ∧ f.body = text ∧
      front = (front ++ rest).takeWhile isBlank ++ f.front := by
  cases h with
  | body indent frame trailing =>
      have hwhole : indent.text ++ frame.front ++ (frame.body ++ (frame.ending ++ trailing.text)) =
          indent.text ++ (frame.text ++ trailing.text) := by
        simp only [FunctionFrame.text, List.append_assoc]
      obtain ⟨htaken, htrimmed⟩ := frame.trim_text indent trailing
      refine ⟨frame.parts, ?_, rfl, ?_⟩
      · rw [hwhole, htrimmed]
        exact function?_eq_some_iff_frame.mpr ⟨frame, rfl, rfl⟩
      · rw [hwhole, htaken]
        rfl

/-- **There is one way to cut a line** for the line as a whole, and one for its body. -/
theorem unique (h : Leads front rest aim) {aim' : Aim} (h' : Leads front' rest' aim')
    (hsame : front ++ rest = front' ++ rest') (halike : aim = .statement ↔ aim' = .statement) :
    front = front' ∧ aim = aim' := by
  cases aim with
  | statement =>
      obtain rfl := halike.mp rfl
      rw [← h.front_of_statement, ← h'.front_of_statement, hsame]
      exact ⟨rfl, rfl⟩
  | body text =>
      cases aim' with
      | statement => exact absurd (halike.mpr rfl) Aim.noConfusion
      | body text' =>
          obtain ⟨f, hread, rfl, hcut⟩ := h.front_of_body
          obtain ⟨f', hread', rfl, hcut'⟩ := h'.front_of_body
          rw [← hsame] at hread' hcut'
          obtain rfl := Option.some.inj (hread.symm.trans hread')
          exact ⟨hcut.trans hcut'.symm, rfl⟩

end Leads

/-! ### Lines that have a frame -/

theorem FunctionFrame.not_skipped (frame : FunctionFrame) : ¬ Skipped frame.text := by
  refine not_skipped_of_head? frame.head?_text ?_
  split <;> decide

/-- Up to its first parenthesis a header could all stand in the clause of an import. -/
theorem Header.exists_text_eq (h : Header) :
    ∃ front rest, h.text = front ++ '(' :: rest ∧ ∀ c ∈ front, inClause c = true := by
  have hword : ∀ c ∈ "function".toList, inClause c = true := List.all_eq_true.mp (by decide)
  have hblanks : ∀ w : Blanks, ∀ c ∈ w.text, inClause c = true := fun w c hmember =>
    inClause_of_isBlank (w.blank c hmember)
  have hname : ∀ c ∈ h.name.text, inClause c = true := fun c hmember =>
    inClause_of_inName (h.name.inName_text c hmember)
  have hsplit (keyword rest : List Char) :
      keyword ++ (h.beforeName.text ++ (h.name.text ++ (h.beforeOpen.text ++ '(' :: rest))) =
        keyword ++ (h.beforeName.text ++ (h.name.text ++ h.beforeOpen.text)) ++ '(' :: rest := by
    simp only [List.append_assoc]
  refine ⟨_, _, hsplit _ _, ?_⟩
  exact List.forall_mem_append.mpr ⟨hword, List.forall_mem_append.mpr ⟨hblanks _,
    List.forall_mem_append.mpr ⟨hname, hblanks _⟩⟩⟩

/-- A line that has a frame is no import: its first parenthesis comes before any quote and can be in no
clause. -/
theorem FunctionFrame.text_ne (frame : FunctionFrame) (i : ImportSyntax) : frame.text ≠ i.text := by
  intro hsame
  have hkeyword : i.text.head? = some (if i.reexport then 'e' else 'i') := by
    unfold ImportSyntax.text
    cases i.reexport <;> exact List.mem_head?_append_of_mem_head? (by decide)
  have hboth : i.reexport = true ∧ frame.afterExport.isSome = true := by
    rw [← hsame, frame.head?_text] at hkeyword
    generalize i.reexport = reexport, frame.afterExport.isSome = exported at hkeyword
    revert reexport exported
    decide
  obtain ⟨hreexport, hexported⟩ := hboth
  obtain ⟨gap, hexported⟩ := Option.isSome_iff_exists.mp hexported
  obtain ⟨front, rest, hheader, hinside⟩ := frame.header.exists_text_eq
  have hstart : FunctionSyntax.exportText frame.afterExport = "export".toList ++ gap.text := by
    rw [hexported]
    rfl
  have hstart' : ImportSyntax.keywordText i.reexport = "export".toList := by
    rw [hreexport]
    rfl
  unfold FunctionFrame.text FunctionFrame.front ImportSyntax.text at hsame
  rw [hheader, hstart, hstart'] at hsame
  generalize "export".toList = word at hsame
  simp only [List.append_assoc, List.cons_append, List.append_cancel_left_eq] at hsame
  rw [← List.append_assoc] at hsame
  -- Both texts go on like a clause, the one up to a parenthesis and the other up to a quote.
  have hclause : ∀ c ∈ gap.text ++ front, inClause c = true :=
    List.forall_mem_append.mpr ⟨fun c hmember => inClause_of_isBlank (gap.blank c hmember), hinside⟩
  have hquote : inClause i.opening.sign = false := by
    by_contra hother
    rw [Bool.not_eq_false] at hother
    exact absurd (isQuote_of_inClause hother) (by rw [i.opening.quotes]; decide)
  obtain ⟨-, hsigns⟩ := span_inj hclause (ImportSyntax.inClause_frontText _ _)
    (by rintro c ⟨⟩; decide) (by rintro c ⟨⟩; exact hquote) hsame
  have hparenthesis := i.opening.quotes
  rw [← (List.cons.inj hsigns).1] at hparenthesis
  exact absurd hparenthesis (by decide)

theorem import?_of_frame (frame : FunctionFrame) : Line.import? frame.text = none := by
  by_contra hread
  obtain ⟨specifier, hread⟩ := Option.ne_none_iff_exists'.mp hread
  obtain ⟨i, hsame, -⟩ := import?_eq_some_iff.mp hread
  exact frame.text_ne i hsame.symm

section Reading

variable (frame : FunctionFrame) (indent trailing : Blanks)

/-- What is found in a line that has a frame. -/
theorem FunctionFrame.found :
    ¬ Skipped (trim (indent.text ++ (frame.text ++ trailing.text))) ∧
      Line.import? (trim (indent.text ++ (frame.text ++ trailing.text))) = none ∧
      Line.function? (trim (indent.text ++ (frame.text ++ trailing.text))) = some frame.parts := by
  rw [(frame.trim_text indent trailing).2]
  exact ⟨frame.not_skipped, import?_of_frame frame, function?_eq_some_iff_frame.mpr ⟨frame, rfl, rfl⟩⟩

/-- A line that has a frame is a function if its body can be read. -/
theorem ofLine_of_frame_of_ok {body : Expr} (hread : readBody frame.body = .ok body) :
    LineReading.ofLine (indent.text ++ (frame.text ++ trailing.text)) =
      .function (String.ofList frame.header.name.text) frame.afterExport.isSome body
        (utf8Size indent.text) (utf8Size (indent.text ++ frame.front)) := by
  obtain ⟨hkept, hnotImport, hfunction⟩ := frame.found indent trailing
  have hread' : readBody frame.parts.body = .ok body := hread
  rw [ofLine_of_not_skipped hkept, utf8Size_append]
  simp only [hnotImport, hfunction, hread', (frame.trim_text indent trailing).1]
  rfl

/-- A line that has a frame is at fault if its body cannot be read, and the fault is with the body. -/
theorem ofLine_of_frame_of_error {finding : Finding} (hread : readBody frame.body = .error finding) :
    LineReading.ofLine (indent.text ++ (frame.text ++ trailing.text)) =
      .fault finding (utf8Size (indent.text ++ frame.front)) := by
  obtain ⟨hkept, hnotImport, hfunction⟩ := frame.found indent trailing
  have hread' : readBody frame.parts.body = .error finding := hread
  rw [ofLine_of_not_skipped hkept, utf8Size_append]
  simp only [hnotImport, hfunction, hread', (frame.trim_text indent trailing).1]
  rfl

end Reading

/-! ### The offsets of a reading -/

/-- What is left of a line that is not skipped starts behind its indentation. -/
theorem standsAt_statement {raw : List Char} (h : ¬ Skipped (trim raw)) :
    StandsAt raw .statement (utf8Size (raw.takeWhile isBlank)) := by
  refine ⟨_, trimStart raw, (takeWhile_append_trimStart raw).symm, ?_, rfl⟩
  obtain ⟨-, hblank, hboundary⟩ := span_eq_iff.mp ⟨rfl, rfl⟩
  cases hrest : trimStart raw with
  | nil => exact absurd (.inl (by rw [trim, hrest, trimEnd_nil])) h
  | cons c rest' => exact .statement hblank (hboundary c (by rw [← trimStart, hrest]; rfl))

/-- The body that is found in a line stands behind the front that is found with it. -/
theorem standsAt_body {raw : List Char} {f : FunctionLine}
    (hread : Line.function? (trim raw) = some f) :
    StandsAt raw (.body f.body) (utf8Size (raw.takeWhile isBlank) + utf8Size f.front) := by
  obtain ⟨frame, hsame, rfl⟩ := function?_eq_some_iff_frame.mp hread
  obtain ⟨trailing, hwhole⟩ := exists_trim_append raw
  obtain ⟨-, hblank, -⟩ := span_eq_iff (p := isBlank) (s := raw).mp ⟨rfl, rfl⟩
  refine ⟨_, _, ?_, .body ⟨_, hblank⟩ frame trailing, (utf8Size_append _ _).symm⟩
  rw [← hsame] at hwhole
  simpa only [FunctionFrame.text, List.append_assoc] using hwhole

/-- The offsets of a function are those of its line and of its body. -/
theorem ofLine_eq_function {raw : List Char} {name : String} {exported : Bool} {body : Expr}
    {offset bodyOffset : Nat}
    (h : LineReading.ofLine raw = .function name exported body offset bodyOffset) :
    StandsAt raw .statement offset ∧
      ∃ text, readBody text = .ok body ∧ StandsAt raw (.body text) bodyOffset := by
  by_cases hskipped : Skipped (trim raw)
  · exact absurd ((ofLine_of_skipped hskipped).symm.trans h) LineReading.noConfusion
  · have hstatement := standsAt_statement hskipped
    rw [ofLine_of_not_skipped hskipped] at h
    split at h
    · cases h
    · split at h
      · rename_i f hread
        split at h
        · rename_i expr hok
          cases h
          exact ⟨hstatement, f.body, hok, standsAt_body hread⟩
        · cases h
      · cases h

/-- The offset of a fault is that of the body, where that is at fault, and otherwise that of the line. -/
theorem ofLine_eq_fault {raw : List Char} {finding : Finding} {offset : Nat}
    (h : LineReading.ofLine raw = .fault finding offset) :
    (finding = .statementExpected ∧ StandsAt raw .statement offset) ∨
      ∃ text, readBody text = .error finding ∧ StandsAt raw (.body text) offset := by
  by_cases hskipped : Skipped (trim raw)
  · exact absurd ((ofLine_of_skipped hskipped).symm.trans h) LineReading.noConfusion
  · have hstatement := standsAt_statement hskipped
    rw [ofLine_of_not_skipped hskipped] at h
    split at h
    · cases h
    · split at h
      · rename_i f hread
        split at h
        · cases h
        · rename_i hwrong
          cases h
          exact .inr ⟨f.body, hwrong, standsAt_body hread⟩
      · cases h
        exact .inl ⟨rfl, hstatement⟩

end Wasmline
