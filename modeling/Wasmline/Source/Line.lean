import Wasmline.Diagnostic.Finding
import Wasmline.Source.Path
import Wasmline.Text.Blank
import Wasmline.Text.Utf8
import Wasmline.Text.Word

/-!
# Lines of a source text

Every declaration stands on a line of its own. With `ws` for a blank and `NAME` for an identifier,
a trimmed line is one of

* an import, `(import | export) ws+ [CLAUSE ws+ from ws+] QUOTE SPECIFIER QUOTE ws* [;]`, whose
  clause is any non-empty run of word characters, blanks and the signs for lists of names, and whose
  specifier is any non-empty text without quotes;
* a function, `[export ws+] function ws+ NAME ws* ( ws* ) ws* : ws* i32 ws*`, then in braces
  `ws* return ws+ BODY ws* [;] ws*`, whose body is an integer or a call `NAME ws* ( ws* )`.

A blank line and a line that starts with two slashes are skipped; any other line is a fault.

No text can be read in two ways here. Blanks, word characters and the signs between them are disjoint
classes, so the front of a line is read from left to right, each run of blanks taken whole. The body
is what is left of the text between `return` and the last brace when blanks, at most one semicolon,
and blanks again are taken off its end. An import has exactly two quotes, which split the line; its
clause, being allowed to hold blanks, only has to leave one blank on either side.
-/

namespace Wasmline

/-- What a function returns, as it is written: an integer, or the result of another function. -/
inductive Expr where
  | int (value : Int32)
  | call (callee : String)
  deriving DecidableEq, Repr

namespace Line

open Text

/-! ### Pieces of a line -/

/-- The text behind `word`, if the text starts with it. -/
def after? : List Char → List Char → Option (List Char)
  | [], s => some s
  | _ :: _, [] => none
  | c :: word, d :: s => if c = d then after? word s else none

/-- Reading `word` succeeds exactly on the texts that start with it. -/
theorem after?_eq_some_iff {word s rest : List Char} :
    after? word s = some rest ↔ s = word ++ rest := by
  induction word generalizing s with
  | nil => simp [after?]
  | cons c word ih =>
    cases s with
    | nil => simp [after?]
    | cons d s =>
      by_cases h : c = d
      · simp [after?, h, ih]
      · simp [after?, h, Ne.symm h]

/-- The text behind a run of one or more blanks. -/
def blanks? : List Char → Option (List Char)
  | [] => none
  | c :: s => if isBlank c then some (trimStart s) else none

/-- A character that a name may start with. -/
def startsName (c : Char) : Bool :=
  c.isAlpha || c = '_' || c = '$'

/-- A character that a name may go on with. -/
def inName (c : Char) : Bool :=
  isWord c || c = '$'

/-- The name that a text starts with, as long as it goes, and the text behind it. -/
def name? : List Char → Option (List Char × List Char)
  | [] => none
  | c :: s => if startsName c then some (c :: s.takeWhile inName, s.dropWhile inName) else none

/-- The text behind `( )`, with blanks in front of either parenthesis or none. -/
def parens? (s : List Char) : Option (List Char) := do
  let s ← after? ['('] (trimStart s)
  after? [')'] (trimStart s)

/-- Either kind of quote. -/
def isQuote (c : Char) : Bool :=
  c = '"' || c = '\''

/-! ### Imports -/

/-- A character of the list of names that an import may give. -/
def inClause (c : Char) : Bool :=
  isWord c || isBlank c || c = '$' || c = '*' || c = '\x7b' || c = '\x7d' || c = ','

/-- The text is a clause with at least one blank on either side of it. -/
def isSpacedClause (s : List Char) : Bool :=
  3 ≤ s.length && s.head?.any isBlank && s.getLast?.any isBlank && s.all inClause

/-- The text may stand between the keyword of an import and its first quote: blanks, or a clause and
`from` with blanks around both. -/
def isImportFront (s : List Char) : Bool :=
  s.getLast?.any isBlank &&
    (s.all isBlank ||
      match Path.dropSuffix? "from".toList (trimEnd s) with
      | some clause => isSpacedClause clause
      | none => false)

/-- The text may stand behind the last quote of an import. -/
def isImportEnd (s : List Char) : Bool :=
  trimStart s == [] || trimStart s == [';']

/-- The specifier of a line that is an import: the group of
`^(?:import|export)\s+(?:[\w$*{}\s,]+?\s+from\s+)?["']([^"']+)["']\s*;?$`. -/
def import? (line : List Char) : Option (List Char) := do
  let s ← after? "import".toList line <|> after? "export".toList line
  let front := s.takeWhile fun c => !isQuote c
  match s.dropWhile fun c => !isQuote c with
  | [] => none
  | _ :: s =>
    let specifier := s.takeWhile fun c => !isQuote c
    match s.dropWhile fun c => !isQuote c with
    | [] => none
    | _ :: rest =>
      if isImportFront front && !specifier.isEmpty && isImportEnd rest then some specifier else none

/-! ### Functions -/

/-- A line in the form of a function, with the text of its body still to be read. -/
structure FunctionLine where
  exported : Bool
  name : List Char
  /-- The part of the line in front of the body. -/
  front : List Char
  body : List Char
  deriving DecidableEq, Repr

/-- Whether a line starts with `export`, and the line without it. -/
def exported? (line : List Char) : Bool × List Char :=
  match after? "export".toList line >>= blanks? with
  | some s => (true, s)
  | none => (false, line)

/-- The text behind `NAME ( ) : i32 `, an opening brace and `return`, which is where the body starts;
with the name. -/
def header? (s : List Char) : Option (List Char × List Char) := do
  let s ← after? "function".toList s
  let s ← blanks? s
  let (name, s) ← name? s
  let s ← parens? s
  let s ← after? [':'] (trimStart s)
  let s ← after? "i32".toList (trimStart s)
  let s ← after? ['\x7b'] (trimStart s)
  let s ← after? "return".toList (trimStart s)
  let s ← blanks? s
  some (name, s)

/-- The body in the text between `return` and the closing brace: blanks, one semicolon if there is
one, and blanks are taken off the end. -/
def bodyText (s : List Char) : List Char :=
  let s := trimEnd s
  match Path.dropSuffix? [';'] s with
  | some s => trimEnd s
  | none => s

/-- The parts of a line that has the form of a function: the groups of
`^(export\s+)?function\s+([A-Za-z_$][\w$]*)\s*\(\s*\)\s*:\s*i32\s*\{\s*return\s+(.*?)\s*;?\s*\}$`. -/
def function? (line : List Char) : Option FunctionLine := do
  let (exported, s) := exported? line
  let (name, s) ← header? s
  let inner ← Path.dropSuffix? ['\x7d'] s
  some { exported, name, front := line.take (line.length - s.length), body := bodyText inner }

/-! ### Bodies -/

/-- The digits of a text in the form of an integer, `^-?\d+$`, and whether a minus sign stands in
front. -/
def digits? (s : List Char) : Option (Bool × List Char) :=
  let (negative, digits) := match s with
    | '-' :: digits => (true, digits)
    | digits => (false, digits)
  if !digits.isEmpty && digits.all isDigit then some (negative, digits) else none

/-- The number that ASCII digits denote. -/
def decimal (digits : List Char) : Nat :=
  digits.foldl (fun n c => 10 * n + (c.toNat - '0'.toNat)) 0

/-- The integer that a sign and ASCII digits denote. -/
def signed (negative : Bool) (digits : List Char) : Int :=
  if negative then -(decimal digits : Int) else decimal digits

/-- The text reads `NAME ( )`; its name, the group of `^([A-Za-z_$][\w$]*)\s*\(\s*\)$`. -/
def call? (s : List Char) : Option (List Char) := do
  let (name, s) ← name? s
  let s ← parens? s
  if s.isEmpty then some name else none

/-- The body that a text denotes. Only ASCII digits have a value. -/
def readBody (s : List Char) : Except Finding Expr :=
  match digits? s with
  | some (negative, digits) =>
    let value := signed negative digits
    if digits.all Char.isDigit && -2147483648 ≤ value && value < 2147483648 then
      .ok (.int (.ofInt value))
    else .error (.literalTooWide (String.ofList s))
  | none =>
    match call? s with
    | some name => .ok (.call (String.ofList name))
    | none => .error .expressionExpected

end Line

/-! ### Whole lines -/

/-- What a line of a source text turns out to be. Offsets count bytes from the start of the line. -/
inductive LineReading where
  /-- A blank line or a comment. -/
  | skipped
  | imports (specifier : String)
  | function (name : String) (exported : Bool) (body : Expr) (offset bodyOffset : Nat)
  | fault (finding : Finding) (offset : Nat)
  deriving DecidableEq, Repr

open Text Line in
/-- Reads one line. -/
def LineReading.ofLine (raw : List Char) : LineReading :=
  let line := trim raw
  let indent := utf8Size (raw.takeWhile isBlank)
  if line.isEmpty || "//".toList.isPrefixOf line then .skipped
  else
    match import? line with
    | some specifier => .imports (String.ofList specifier)
    | none =>
      match function? line with
      | some f =>
        match readBody f.body with
        | .ok body =>
          .function (String.ofList f.name) f.exported body indent (indent + utf8Size f.front)
        | .error finding => .fault finding (indent + utf8Size f.front)
      | none => .fault .statementExpected indent

end Wasmline
