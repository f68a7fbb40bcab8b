import Wasmline.Source.Line
import Mathlib.Data.Nat.Digits.Defs

/-!
# The grammar of a line

The forms that a line of a source text can have are given here as data: a `FunctionSyntax` and an
`ImportSyntax` hold every piece of such a line, down to the blanks between two words, and their `text`
puts the pieces together again. The pieces carry what is asked of them, so a form that breaks a rule
cannot be built. Nothing here says how a line is read.

What is shown of the forms is what a reader relies on: blanks, the characters of names and the signs
in between are different characters (`inName_of_isBlank` and what follows it), a body neither starts
nor ends in a blank, and there is no quote in a function (`FunctionSyntax.unquoted`), while every one
of the other lines has two.
-/

namespace Wasmline

open Text Line

/-! ### Classes of characters -/

/-- The characters of the ranges, one by one. -/
def codePoints (ranges : List (Nat × Nat)) : List Nat :=
  ranges.flatMap fun r => List.range' r.1 (r.2 + 1 - r.1)

theorem mem_codePoints_of_covers {ranges : List (Nat × Nat)} {n : Nat} (h : covers ranges n = true) :
    n ∈ codePoints ranges := by
  unfold covers at h
  obtain ⟨r, hmember, hbounds⟩ := List.any_eq_true.mp h
  simp only [Bool.and_eq_true, decide_eq_true_eq] at hbounds
  refine List.mem_flatMap.mpr ⟨r, hmember, ?_⟩
  rw [List.mem_range'_1]
  omega

/-- There are twenty-five blanks, so what holds of each of them can be looked up. -/
theorem forall_isBlank {p : Char → Prop} (h : ∀ n ∈ codePoints blankRanges, p (Char.ofNat n))
    {c : Char} (hblank : isBlank c = true) : p c := by
  have := h c.toNat (mem_codePoints_of_covers hblank)
  rwa [Char.ofNat_toNat] at this

theorem inName_of_isBlank {c : Char} (hblank : isBlank c = true) : inName c = false := by
  apply forall_isBlank (p := fun c => inName c = false) _ hblank
  decide +kernel

theorem inClause_of_isBlank {c : Char} (hblank : isBlank c = true) : inClause c = true := by
  simp [inClause, hblank]

/-- A class that has neither of the quotes has none. -/
theorem isQuote_of_class {p : Char → Bool} (hdouble : p '"' = false) (hsingle : p '\'' = false)
    {c : Char} (h : p c = true) : isQuote c = false := by
  by_contra hquote
  rw [Bool.not_eq_false, isQuote, Bool.or_eq_true, decide_eq_true_eq, decide_eq_true_eq] at hquote
  rcases hquote with rfl | rfl
  · exact nomatch hdouble.symm.trans h
  · exact nomatch hsingle.symm.trans h

theorem isQuote_of_inClause {c : Char} (h : inClause c = true) : isQuote c = false :=
  isQuote_of_class (by decide) (by decide) h

theorem inClause_of_inName {c : Char} (h : inName c = true) : inClause c = true := by
  unfold inName at h
  unfold inClause
  rcases Bool.or_eq_true_iff.mp h with h | h <;> simp [h]

theorem inName_of_startsName {c : Char} (h : startsName c = true) : inName c = true := by
  unfold startsName at h
  unfold inName isWord
  simp only [Bool.or_eq_true, decide_eq_true_eq] at h ⊢
  rcases h with (h | h) | h
  · simp [Char.isAlphanum, h]
  · simp [h]
  · simp [h]

/-! ### Pieces -/

/-- Blanks, as many as there may be. -/
structure Blanks where
  text : List Char
  blank : ∀ c ∈ text, isBlank c = true

/-- At least one blank. -/
structure Gap extends Blanks where
  ne_nil : text ≠ []

/-- A name. -/
structure Identifier where
  first : Char
  rest : List Char
  starts : startsName first = true
  goesOn : ∀ c ∈ rest, inName c = true

def Identifier.text (name : Identifier) : List Char :=
  name.first :: name.rest

/-- The names that an import gives. -/
structure Clause where
  text : List Char
  ne_nil : text ≠ []
  inside : ∀ c ∈ text, inClause c = true

/-- Either kind of quote. -/
structure Quote where
  sign : Char
  quotes : isQuote sign = true

/-- What an import names: no quote is part of it. -/
structure Specifier where
  text : List Char
  ne_nil : text ≠ []
  unquoted : ∀ c ∈ text, Line.isQuote c = false

/-- A semicolon, or nothing. -/
def semicolonText (present : Bool) : List Char :=
  if present then [';'] else []

/-- An integer as it is written: decimal digits, the highest first, and a minus sign if it is
negative. -/
structure Literal where
  negative : Bool
  digits : List Char
  ne_nil : digits ≠ []
  decimal : ∀ c ∈ digits, c.isDigit = true

namespace Literal

def text (literal : Literal) : List Char :=
  if literal.negative then '-' :: literal.digits else literal.digits

/-- The number in the positional system. -/
def value (literal : Literal) : Int :=
  let magnitude : Nat := Nat.ofDigits 10 (literal.digits.reverse.map fun c => c.toNat - '0'.toNat)
  if literal.negative then -(magnitude : Int) else magnitude

end Literal

/-! ### Bodies -/

/-- What a function returns: the literal of a 32-bit integer, or `NAME ws* ( ws* )`. -/
inductive BodySyntax where
  | int (literal : Literal) (value : Int32) (denotes : value.toInt = literal.value)
  | call (callee : Identifier) (beforeOpen beforeClose : Blanks)

namespace BodySyntax

def text : BodySyntax → List Char
  | int literal _ _ => literal.text
  | call callee beforeOpen beforeClose =>
      callee.text ++ (beforeOpen.text ++ '(' :: (beforeClose.text ++ [')']))

/-- The body that is meant. -/
def expr : BodySyntax → Expr
  | int _ value _ => .int value
  | call callee _ _ => .call (String.ofList callee.text)

end BodySyntax

/-! ### Functions -/

/-- The line of a function up to its body, without `export`:
`function ws+ NAME ws* ( ws* ) ws* : ws* i32 ws*`, an opening brace, and `ws* return ws+`. -/
structure Header where
  beforeName : Gap
  name : Identifier
  beforeOpen : Blanks
  beforeClose : Blanks
  beforeColon : Blanks
  beforeType : Blanks
  beforeBrace : Blanks
  beforeReturn : Blanks
  beforeBody : Gap

def Header.text (header : Header) : List Char :=
  "function".toList ++ (header.beforeName.text ++ (header.name.text ++
    (header.beforeOpen.text ++ '(' :: (header.beforeClose.text ++ ')' ::
    (header.beforeColon.text ++ ':' :: (header.beforeType.text ++ ("i32".toList ++
    (header.beforeBrace.text ++ '\x7b' :: (header.beforeReturn.text ++ ("return".toList ++
    header.beforeBody.text))))))))))

/-- The line of a function: `[export ws+]`, its header, and `BODY ws* [;] ws*` with a closing
brace. -/
structure FunctionSyntax where
  /-- The blanks behind `export`, if it is there. -/
  afterExport : Option Gap
  header : Header
  body : BodySyntax
  beforeSemicolon : Blanks
  semicolon : Bool
  beforeBrace : Blanks

namespace FunctionSyntax

def exportText : Option Gap → List Char
  | some gap => "export".toList ++ gap.text
  | none => []

def text (f : FunctionSyntax) : List Char :=
  exportText f.afterExport ++ (f.header.text ++ (f.body.text ++ (f.beforeSemicolon.text ++
    (semicolonText f.semicolon ++ (f.beforeBrace.text ++ ['\x7d'])))))

/-- The name that is declared, whether it is exported, and its body. -/
def declares (f : FunctionSyntax) : String × Bool × Expr :=
  (String.ofList f.header.name.text, f.afterExport.isSome, f.body.expr)

end FunctionSyntax

/-! ### Imports -/

/-- The clause of an import: `CLAUSE ws+ from ws+`. -/
structure FromClause where
  clause : Clause
  beforeFrom : Gap
  afterFrom : Gap

def FromClause.text (from? : FromClause) : List Char :=
  from?.clause.text ++ (from?.beforeFrom.text ++ ("from".toList ++ from?.afterFrom.text))

/-- The line of an import:
`(import | export) ws+ [CLAUSE ws+ from ws+] QUOTE SPECIFIER QUOTE ws* [;]`. -/
structure ImportSyntax where
  /-- The line starts with `export`, and otherwise with `import`. -/
  reexport : Bool
  afterKeyword : Gap
  from? : Option FromClause
  opening : Quote
  specifier : Specifier
  closing : Quote
  beforeSemicolon : Blanks
  semicolon : Bool

namespace ImportSyntax

def keywordText (reexport : Bool) : List Char :=
  if reexport then "export".toList else "import".toList

/-- What stands between the keyword and the first quote. -/
def frontText (gap : Gap) (from? : Option FromClause) : List Char :=
  gap.text ++ (from?.map FromClause.text).getD []

def text (i : ImportSyntax) : List Char :=
  keywordText i.reexport ++ (frontText i.afterKeyword i.from? ++ i.opening.sign ::
    (i.specifier.text ++ i.closing.sign :: (i.beforeSemicolon.text ++ semicolonText i.semicolon)))

/-- What is imported. -/
def declares (i : ImportSyntax) : String :=
  String.ofList i.specifier.text

end ImportSyntax

/-! ### Starts, ends and quotes -/

/-- The text does not start with a blank. -/
def Flush (s : List Char) : Prop :=
  ∀ c ∈ s.head?, isBlank c = false

@[simp] theorem flush_nil : Flush [] := nofun

@[simp] theorem flush_cons {c : Char} {s : List Char} : Flush (c :: s) ↔ isBlank c = false := by
  simp [Flush]

/-- The text has no quote in it. -/
def Unquoted (s : List Char) : Prop :=
  ∀ c ∈ s, isQuote c = false

instance (s : List Char) : Decidable (Unquoted s) :=
  List.decidableBAll (fun c => isQuote c = false) s

@[simp] theorem unquoted_nil : Unquoted [] := nofun

@[simp] theorem unquoted_cons {c : Char} {s : List Char} :
    Unquoted (c :: s) ↔ isQuote c = false ∧ Unquoted s := by
  simp [Unquoted]

@[simp] theorem unquoted_append {s t : List Char} : Unquoted (s ++ t) ↔ Unquoted s ∧ Unquoted t := by
  simp [Unquoted, or_imp, forall_and]

theorem isBlank_of_inName {c : Char} (h : inName c = true) : isBlank c = false := by
  by_contra hblank
  rw [Bool.not_eq_false] at hblank
  exact nomatch (inName_of_isBlank hblank).symm.trans h

theorem isBlank_of_isDigit {c : Char} (h : c.isDigit = true) : isBlank c = false := by
  apply isBlank_of_inName
  simp [inName, isWord, Char.isAlphanum, h]

@[simp] theorem Blanks.unquoted (w : Blanks) : Unquoted w.text :=
  fun c hmember => isQuote_of_inClause (inClause_of_isBlank (w.blank c hmember))

theorem Identifier.inName_text (name : Identifier) : ∀ c ∈ name.text, inName c = true := by
  intro c hmember
  rcases List.mem_cons.mp hmember with rfl | hmember
  · exact inName_of_startsName name.starts
  · exact name.goesOn c hmember

@[simp] theorem Identifier.unquoted (name : Identifier) : Unquoted name.text :=
  fun c hmember => isQuote_of_inClause (inClause_of_inName (name.inName_text c hmember))

@[simp] theorem unquoted_semicolonText (present : Bool) : Unquoted (semicolonText present) := by
  unfold semicolonText
  split <;> simp [isQuote]

@[simp] theorem Literal.unquoted (literal : Literal) : Unquoted literal.text := by
  have hdigits : Unquoted literal.digits := fun c hmember =>
    isQuote_of_class (by decide) (by decide) (literal.decimal c hmember)
  unfold Literal.text
  split
  · exact unquoted_cons.mpr ⟨by decide, hdigits⟩
  · exact hdigits

/-- A literal does not start with a blank. -/
theorem Literal.flush_text (literal : Literal) (rest : List Char) : Flush (literal.text ++ rest) := by
  obtain ⟨c, digits, hsame⟩ := List.exists_cons_of_ne_nil literal.ne_nil
  have hfirst : c.isDigit = true := literal.decimal c (by simp [hsame])
  simp only [text, hsame]
  split
  · exact flush_cons.mpr (by decide)
  · exact flush_cons.mpr (isBlank_of_isDigit hfirst)

/-- A literal ends in a digit. -/
theorem Literal.exists_last (literal : Literal) :
    ∃ front last, literal.text = front ++ [last] ∧ isBlank last = false ∧ last ≠ ';' := by
  have hlast : (literal.digits.getLast literal.ne_nil).isDigit = true :=
    literal.decimal _ (List.getLast_mem _)
  refine ⟨(if literal.negative then ['-'] else []) ++ literal.digits.dropLast,
    literal.digits.getLast literal.ne_nil, ?_, isBlank_of_isDigit hlast, ?_⟩
  · rw [List.append_assoc, List.dropLast_concat_getLast, text]
    split <;> rfl
  · intro hsemicolon
    exact nomatch (hsemicolon ▸ hlast)

namespace BodySyntax

@[simp] theorem unquoted : (body : BodySyntax) → Unquoted body.text
  | int literal _ _ => literal.unquoted
  | call callee beforeOpen beforeClose => by simp [text, isQuote]

/-- A body does not start with a blank. -/
theorem flush_text (body : BodySyntax) (rest : List Char) : Flush (body.text ++ rest) := by
  cases body with
  | int literal value hdenotes => exact literal.flush_text rest
  | call callee beforeOpen beforeClose =>
      exact flush_cons.mpr (isBlank_of_inName (inName_of_startsName callee.starts))

/-- A body ends in a digit or a parenthesis. -/
theorem exists_last (body : BodySyntax) :
    ∃ front last, body.text = front ++ [last] ∧ isBlank last = false ∧ last ≠ ';' := by
  cases body with
  | int literal value hdenotes => exact literal.exists_last
  | call callee beforeOpen beforeClose =>
      refine ⟨callee.text ++ (beforeOpen.text ++ '(' :: beforeClose.text), ')', ?_, by decide, by decide⟩
      simp [text]

end BodySyntax

/-- What stands in front of the quotes of a line could all stand in its clause. -/
theorem ImportSyntax.inClause_frontText (gap : Gap) (from? : Option FromClause) :
    ∀ c ∈ frontText gap from?, inClause c = true := by
  have hblanks : ∀ w : Blanks, ∀ c ∈ w.text, inClause c = true := fun w c hmember =>
    inClause_of_isBlank (w.blank c hmember)
  have hword : ∀ c ∈ "from".toList, inClause c = true := List.all_eq_true.mp (by decide)
  unfold frontText
  cases from? with
  | none => exact List.forall_mem_append.mpr ⟨hblanks _, List.forall_mem_nil _⟩
  | some f =>
      exact List.forall_mem_append.mpr ⟨hblanks _, List.forall_mem_append.mpr ⟨f.clause.inside,
        List.forall_mem_append.mpr ⟨hblanks _, List.forall_mem_append.mpr ⟨hword, hblanks _⟩⟩⟩⟩

/-- No quote stands in front of the quotes of a line. -/
theorem ImportSyntax.unquoted_frontText (gap : Gap) (from? : Option FromClause) :
    Unquoted (frontText gap from?) :=
  fun c hmember => isQuote_of_inClause (inClause_frontText gap from? c hmember)

/-- No function has a quote in it. -/
theorem FunctionSyntax.unquoted (f : FunctionSyntax) : Unquoted f.text := by
  have hexported : Unquoted (exportText f.afterExport) := by
    have hkeyword : Unquoted "export".toList := by decide
    unfold exportText
    split
    · rw [unquoted_append]
      exact ⟨hkeyword, Blanks.unquoted _⟩
    · exact unquoted_nil
  have hheader : Unquoted f.header.text := by
    have hfunction : Unquoted "function".toList := by decide
    have htype : Unquoted "i32".toList := by decide
    have hreturn : Unquoted "return".toList := by decide
    unfold Header.text
    -- Spelled out, the words would be taken apart as lists.
    generalize "function".toList = w₁, "i32".toList = w₂, "return".toList = w₃ at *
    simp [hfunction, htype, hreturn, isQuote]
  simp only [text, unquoted_append, hexported, hheader, BodySyntax.unquoted, Blanks.unquoted,
    unquoted_semicolonText, true_and]
  decide

end Wasmline
