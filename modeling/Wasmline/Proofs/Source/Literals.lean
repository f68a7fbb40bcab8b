import Wasmline.Proofs.Source.Accounting

/-!
# Integers are read exactly

A body in the form of an integer, ASCII digits with or without a minus sign in front, is read as the
number that it denotes in the positional system, or refused if that number is no 32-bit integer
(`readBody_literal`). No body is read as an integer in any other way (`readBody_eq_int_iff`); in particular
there is none with a digit beyond ASCII in it, although such digits are let through to the number reader.

What a file gets from one of its lines is what it has on that line's number (`declaredOn_eq`,
`reportedOn_eq`), so nothing is lost by saying it of whole files: a line with such a body comes to one
function, or to one error that is placed at the body, whatever the other lines are.
-/

namespace Wasmline

open Text Line

/-! ### What a file gets from one line -/

namespace ParsedFile

/-- The functions that are declared on a line. -/
def declaredOn (parsed : ParsedFile) (number : Nat) : List Declaration :=
  parsed.functions.filter fun d => d.location.line = number

/-- The diagnostics that are placed on a line. -/
def reportedOn (parsed : ParsedFile) (number : Nat) : List Diagnostic :=
  parsed.diagnostics.filter fun d => d.location.any fun place => place.line = number

end ParsedFile

/-- Of what the lines of a text come to, a part that holds what has the number of one line is what that line
comes to. -/
theorem NumberedLine.filter_filterMap_all {α : Type} {text : String} {l : NumberedLine}
    (hmember : l ∈ all text) {read : NumberedLine → Option α} {part : α → Bool}
    (hnumbered : ∀ m a, read m = some a → part a = decide (m.number = l.number)) :
    ((all text).filterMap read).filter part = (read l).toList := by
  have hrising := pairwise_number_all text
  obtain ⟨before, behind, hsplit⟩ := List.append_of_mem hmember
  rw [hsplit, List.pairwise_append, List.pairwise_cons] at hrising
  obtain ⟨-, ⟨hlater, -⟩, hearlier⟩ := hrising
  have hother (m : NumberedLine) (hne : m.number ≠ l.number) : (read m).filter part = none := by
    rw [Option.filter_eq_none_iff]
    intro a hmade
    rw [hnumbered m a hmade, decide_eq_true_iff]
    exact hne
  have this : (read l).filter part = read l := by
    cases hmade : read l with
    | none => rfl
    | some a => simp [hnumbered l a hmade]
  have hfirst : before.filterMap (fun m => (read m).filter part) = [] :=
    List.filterMap_eq_nil_iff.mpr fun m hinside =>
      hother m (Nat.ne_of_lt (hearlier m hinside l List.mem_cons_self))
  have hlast : behind.filterMap (fun m => (read m).filter part) = [] :=
    List.filterMap_eq_nil_iff.mpr fun m hinside => hother m (Nat.ne_of_gt (hlater m hinside))
  rw [List.filter_filterMap, hsplit, List.filterMap_append, hfirst, List.nil_append,
    List.filterMap_cons, hlast, this]
  cases read l <;> rfl

theorem declaredOn_eq (path : String) {text : String} {l : NumberedLine}
    (hmember : l ∈ NumberedLine.all text) :
    (ParsedFile.parse path text).declaredOn l.number =
      (l.function? (ParsedFile.fileName path)).toList := by
  refine NumberedLine.filter_filterMap_all hmember ?_
  intro m d hmade
  unfold NumberedLine.function? at hmade
  split at hmade
  · cases hmade
    rfl
  · cases hmade

/-- A line that is not skipped keeps the file from being reported as empty. -/
theorem reportedOn_eq (path : String) {text : String} {l : NumberedLine}
    (hmember : l ∈ NumberedLine.all text) (hkept : ¬ Skipped (trim l.text)) :
    (ParsedFile.parse path text).reportedOn l.number =
      (l.diagnostic? (ParsedFile.fileName path)).toList := by
  have hsome : keptLines text ≠ 0 := by
    unfold keptLines
    rw [← Nat.pos_iff_ne_zero, List.countP_pos_iff, ← NumberedLine.map_text_all]
    exact ⟨l.text, List.mem_map_of_mem hmember, decide_eq_true hkept⟩
  unfold ParsedFile.reportedOn
  rw [ParsedFile.diagnostics_parse, if_neg hsome, ← ParsedFile.filterMap_diagnostic?]
  refine NumberedLine.filter_filterMap_all hmember ?_
  intro m d hmade
  unfold NumberedLine.diagnostic? at hmade
  split at hmade
  · cases hmade
    rfl
  · cases hmade

/-! ### Numbers -/

/-- The 32-bit integers are the integers of a range, which has one more below zero than above. -/
theorem exists_toInt_eq_iff {n : Int} :
    (∃ value : Int32, value.toInt = n) ↔ -2147483648 ≤ n ∧ n < 2147483648 := by
  constructor
  · rintro ⟨value, rfl⟩
    exact ⟨value.le_toInt, value.toInt_lt⟩
  · rintro ⟨hlow, hhigh⟩
    exact ⟨.ofInt n, Int32.toInt_ofInt_of_le hlow hhigh⟩

/-- **A body is read as an integer exactly if it is a literal that denotes it.** -/
theorem readBody_eq_int_iff {s : List Char} {value : Int32} :
    readBody s = .ok (.int value) ↔
      ∃ literal : Literal, literal.text = s ∧ value.toInt = literal.value := by
  rw [readBody_eq_ok_iff]
  constructor
  · rintro ⟨body, rfl, hsame⟩
    cases body with
    | int literal number hdenotes =>
        cases hsame
        exact ⟨literal, rfl, hdenotes⟩
    | call => cases hsame
  · rintro ⟨literal, rfl, hdenotes⟩
    exact ⟨.int literal value hdenotes, rfl, rfl⟩

/-- **A literal that denotes no 32-bit integer is refused.** -/
theorem readBody_of_not_fits {literal : Literal}
    (hwide : ¬ (-2147483648 ≤ literal.value ∧ literal.value < 2147483648)) :
    readBody literal.text = .error (.literalTooWide (String.ofList literal.text)) := by
  simp only [readBody, literal.digits?_text, signed_eq_value]
  rw [if_neg]
  simp only [Bool.and_eq_true, decide_eq_true_eq, and_assoc]
  exact fun hfits => hwide hfits.2

/-- A literal is all ASCII. -/
theorem Literal.toNat_lt (literal : Literal) : ∀ c ∈ literal.text, c.toNat < 128 := by
  have hdigits : ∀ c ∈ literal.digits, c.toNat < 128 := by
    intro c hmember
    have hbounds := Char.isDigit_iff_toNat.mp (literal.decimal c hmember)
    exact Nat.lt_of_le_of_lt hbounds.2 (by decide)
  unfold text
  split
  · exact List.forall_mem_cons.mpr ⟨by decide, hdigits⟩
  · exact hdigits

/-! ### Lines -/

/-- A line that is well formed as a function and has an integer for its body, of whatever size. -/
structure LiteralLine where
  indent : Blanks
  /-- The blanks behind `export`, if it is there. -/
  afterExport : Option Gap
  header : Header
  literal : Literal
  beforeSemicolon : Blanks
  semicolon : Bool
  beforeBrace : Blanks
  trailing : Blanks

namespace LiteralLine

variable (line : LiteralLine)

/-- What stands in front of the body. -/
def front : List Char :=
  line.indent.text ++ (FunctionSyntax.exportText line.afterExport ++ line.header.text)

def text : List Char :=
  line.front ++ (line.literal.text ++
    (endingText line.beforeSemicolon line.semicolon line.beforeBrace ++ line.trailing.text))

/-- The place in the line that is behind `front`, if the line has this number in the file known by
`path`. -/
def place (path : String) (number : Nat) (front : List Char) : Location where
  path := ParsedFile.fileName path
  line := number
  column := utf8Size front + 1
  lineText := some (String.ofList line.text)

/-- The literal is the body of the line: neither its start nor its end could be taken for something that
stands around it. -/
def frame : FunctionFrame where
  afterExport := line.afterExport
  header := line.header
  body := line.literal.text
  beforeSemicolon := line.beforeSemicolon
  semicolon := line.semicolon
  beforeBrace := line.beforeBrace
  flush := line.literal.flush_text _
  shortest := shortest_of_bodyText (bodyText_append line.literal.exists_last _ _ _)

theorem text_eq : line.text = line.indent.text ++ (line.frame.text ++ line.trailing.text) := by
  simp only [text, front, FunctionFrame.text, FunctionFrame.front, FunctionFrame.ending, frame,
    List.append_assoc]

theorem ofLine_of_fits {value : Int32} (hdenotes : value.toInt = line.literal.value) :
    LineReading.ofLine line.text =
      .function (String.ofList line.header.name.text) line.afterExport.isSome (.int value)
        (utf8Size line.indent.text) (utf8Size line.front) := by
  rw [line.text_eq]
  apply ofLine_of_frame_of_ok line.frame
  exact readBody_eq_int_iff.mpr ⟨line.literal, rfl, hdenotes⟩

theorem ofLine_of_not_fits
    (hwide : ¬ (-2147483648 ≤ line.literal.value ∧ line.literal.value < 2147483648)) :
    LineReading.ofLine line.text =
      .fault (.literalTooWide (String.ofList line.literal.text)) (utf8Size line.front) := by
  rw [line.text_eq]
  apply ofLine_of_frame_of_error line.frame
  exact readBody_of_not_fits hwide

theorem not_skipped : ¬ Skipped (trim line.text) := by
  rw [line.text_eq]
  exact (line.frame.found line.indent line.trailing).1

end LiteralLine

/-- A line has one body. -/
theorem StandsAt.body_unique {raw body body' : List Char} {offset offset' : Nat}
    (h : StandsAt raw (.body body) offset) (h' : StandsAt raw (.body body') offset') : body = body' := by
  obtain ⟨front, rest, hsplit, hleads, -⟩ := h
  obtain ⟨front', rest', hsplit', hleads', -⟩ := h'
  have hsame := hleads.unique hleads' (hsplit.symm.trans hsplit') ⟨Aim.noConfusion, Aim.noConfusion⟩
  exact Aim.body.inj hsame.2

theorem NumberedLine.mem_all_of_getElem? {text : String} {i : Nat} {raw : List Char}
    (hline : (Text.lines text.toList)[i]? = some raw) : ⟨i + 1, raw, .ofLine raw⟩ ∈ all text :=
  mem_all_iff.mpr ⟨i, hline, rfl, rfl⟩

/-- **Integers are read exactly.** Let a line of a text be well formed as a function with an optional minus
sign and ASCII digits for its body, as many as there may be. If the number that they denote is a 32-bit
integer, the line declares the function that returns it, and nothing is reported there. If not, it
declares nothing, and the one report is an error that is placed at the body. And a line whose body has a
character beyond ASCII in it, such as a digit of another script, declares no function with an integer. -/
theorem literal_body_read_exactly (path text : String) (i : Nat) :
    (∀ line : LiteralLine, (Text.lines text.toList)[i]? = some line.text →
      (-2147483648 ≤ line.literal.value ∧ line.literal.value < 2147483648 →
        ∃ value : Int32, value.toInt = line.literal.value ∧
          (ParsedFile.parse path text).declaredOn (i + 1) =
            [⟨String.ofList line.header.name.text, line.afterExport.isSome, .int value,
              line.place path (i + 1) line.indent.text, line.place path (i + 1) line.front⟩] ∧
          (ParsedFile.parse path text).reportedOn (i + 1) = []) ∧
      (¬ (-2147483648 ≤ line.literal.value ∧ line.literal.value < 2147483648) →
        (ParsedFile.parse path text).declaredOn (i + 1) = [] ∧
        (ParsedFile.parse path text).reportedOn (i + 1) =
          [⟨.error, "TS1006",
            "Literal '" ++ String.ofList line.literal.text ++ "' does not fit in an i32.",
            some (line.place path (i + 1) line.front)⟩])) ∧
    ∀ raw body offset, (Text.lines text.toList)[i]? = some raw → StandsAt raw (.body body) offset →
      (∃ c ∈ body, 128 ≤ c.toNat) →
        ∀ d ∈ (ParsedFile.parse path text).declaredOn (i + 1), ∀ value, d.body ≠ .int value := by
  constructor
  · intro line hthere
    have hmember := NumberedLine.mem_all_of_getElem? hthere
    have hdeclared := declaredOn_eq path hmember
    have hreported := reportedOn_eq path hmember line.not_skipped
    constructor
    · intro hfits
      obtain ⟨value, hdenotes⟩ := exists_toInt_eq_iff.mpr hfits
      refine ⟨value, hdenotes, hdeclared.trans ?_, hreported.trans ?_⟩
      · rw [NumberedLine.function?, line.ofLine_of_fits hdenotes]
        rfl
      · rw [NumberedLine.diagnostic?, line.ofLine_of_fits hdenotes]
        rfl
    · intro hwide
      refine ⟨hdeclared.trans ?_, hreported.trans ?_⟩
      · rw [NumberedLine.function?, line.ofLine_of_not_fits hwide]
        rfl
      · rw [NumberedLine.diagnostic?, line.ofLine_of_not_fits hwide]
        rfl
  · rintro raw body offset hthere hstands ⟨c, hinside, hbeyond⟩ d hdeclared value hinteger
    rw [declaredOn_eq path (NumberedLine.mem_all_of_getElem? hthere), Option.mem_toList] at hdeclared
    unfold NumberedLine.function? at hdeclared
    split at hdeclared
    · rename_i hreading
      cases hdeclared
      obtain ⟨-, body', hread, hstands'⟩ := ofLine_eq_function hreading
      obtain rfl := hstands.body_unique hstands'
      dsimp only at hinteger
      rw [hinteger] at hread
      obtain ⟨literal, rfl, -⟩ := readBody_eq_int_iff.mp hread
      exact absurd (literal.toNat_lt c hinside) (Nat.not_lt.mpr hbeyond)
    · cases hdeclared

/-- A line that declares a function `f` by a literal, with single blanks where there must be one. -/
def plainLine (literal : Literal) : LiteralLine where
  indent := ⟨[], List.forall_mem_nil _⟩
  afterExport := none
  header :=
    { beforeName := ⟨⟨[' '], List.forall_mem_singleton.mpr (by decide)⟩, List.cons_ne_nil _ _⟩
      name := ⟨'f', [], by decide, List.forall_mem_nil _⟩
      beforeOpen := ⟨[], List.forall_mem_nil _⟩
      beforeClose := ⟨[], List.forall_mem_nil _⟩
      beforeColon := ⟨[], List.forall_mem_nil _⟩
      beforeType := ⟨[], List.forall_mem_nil _⟩
      beforeBrace := ⟨[], List.forall_mem_nil _⟩
      beforeReturn := ⟨[], List.forall_mem_nil _⟩
      beforeBody := ⟨⟨[' '], List.forall_mem_singleton.mpr (by decide)⟩, List.cons_ne_nil _ _⟩ }
  literal := literal
  beforeSemicolon := ⟨[], List.forall_mem_nil _⟩
  semicolon := false
  beforeBrace := ⟨[], List.forall_mem_nil _⟩
  trailing := ⟨[], List.forall_mem_nil _⟩

/-- The number behind the last 32-bit integer, with a zero in front and a sign or none. -/
def extremeLiteral (negative : Bool) : Literal where
  negative := negative
  digits := "02147483648".toList
  ne_nil := by decide
  decimal := List.all_eq_true.mp (by decide)

/-- Both of these numbers, and a digit of another script. -/
def extremeText : String :=
  "function f():i32\x7breturn -02147483648\x7d\nfunction f():i32\x7breturn 02147483648\x7d\n" ++
    "function f():i32\x7breturn \u0663\x7d"

/-- Of the three, only the first is read as an integer. -/
theorem extremeText_read :
    (∃ d, (ParsedFile.parse "main" extremeText).declaredOn 1 = [d] ∧ d.body = .int (-2147483648)) ∧
      (ParsedFile.parse "main" extremeText).declaredOn 2 = [] ∧
      ((ParsedFile.parse "main" extremeText).reportedOn 2).map Diagnostic.code = ["TS1006"] ∧
      ∀ d ∈ (ParsedFile.parse "main" extremeText).declaredOn 3, ∀ value, d.body ≠ .int value := by
  have hlines : Text.lines extremeText.toList =
      [(plainLine (extremeLiteral true)).text, (plainLine (extremeLiteral false)).text,
        "function f():i32\x7breturn \u0663\x7d".toList] := by decide +kernel
  have hlow : (extremeLiteral true).value = -2147483648 := by decide +kernel
  have hhigh : (extremeLiteral false).value = 2147483648 := by decide +kernel
  have hfirst : (Text.lines extremeText.toList)[0]? = some (plainLine (extremeLiteral true)).text := by
    rw [hlines]
    rfl
  have hsecond : (Text.lines extremeText.toList)[1]? = some (plainLine (extremeLiteral false)).text := by
    rw [hlines]
    rfl
  have hthird : (Text.lines extremeText.toList)[2]? =
      some "function f():i32\x7breturn \u0663\x7d".toList := by
    rw [hlines]
    rfl
  refine ⟨?_, ?_⟩
  · obtain ⟨hfits, -⟩ := (literal_body_read_exactly "main" extremeText 0).1 _ hfirst
    obtain ⟨value, hdenotes, hdeclared, -⟩ := hfits (by rw [plainLine, hlow]; decide)
    refine ⟨_, hdeclared, congrArg Expr.int (Int32.toInt_inj.mp (hdenotes.trans ?_))⟩
    exact hlow.trans (by decide)
  · obtain ⟨-, hwide⟩ := (literal_body_read_exactly "main" extremeText 1).1 _ hsecond
    obtain ⟨hdeclared, hreported⟩ := hwide (by rw [plainLine, hhigh]; decide)
    refine ⟨hdeclared, by rw [hreported]; rfl, ?_⟩
    apply (literal_body_read_exactly "main" extremeText 2).2 _ _ _ hthird
    · apply standsAt_body (f := ⟨false, ['f'], "function f():i32\x7breturn ".toList, ['\u0663']⟩)
      decide +kernel
    · exact ⟨'\u0663', List.mem_singleton_self _, by decide⟩

end Wasmline
