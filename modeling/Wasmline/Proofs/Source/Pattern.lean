import Wasmline.Proofs.Source.Placement

/-!
# The patterns of a line

The forms of a line can also be given by patterns, with classes of characters, runs that take as much as
they can or as little, and groups whose text is what a match is asked for. In the usual writing, with
`\s`, `\w` and `\d` for the classes `isBlank`, `isWord` and `isDigit`, they are

* for an import, `^(?:import|export)\s+(?:[\w$*{}\s,]+?\s+from\s+)?["']([^"']+)["']\s*;?$`;
* for a function, `^(export\s+)?function\s+([A-Za-z_$][\w$]*)\s*\(\s*\)\s*:\s*i32\s*` and then
  `\{\s*return\s+(.*?)\s*;?\s*\}$`;
* for an integer, `^-?\d+$`;
* for a call, `^([A-Za-z_$][\w$]*)\s*\(\s*\)$`.

A pattern can match a text in many ways, and they come in an order: `Pattern.ways` lists them, a greedy
run longest first, a lazy one shortest first, and something optional first as if it had to be there. A
match is the first of the ways that takes all of the line (`Pattern.captures?`).

Each reader of a line finds what its pattern finds: `import?_eq_captures?`, `call?_eq_captures?`,
`isSome_digits?_eq_captures?` and `function?_eq_captures?`. In an import or a call the order is of no
account, since all ways have the same text in the group. In a function it is what gives the body: blanks
in front of a body could be part of it, and so could blanks and a semicolon behind it, but the greedy run
comes before the body and the body is lazy. That is what a `FunctionFrame` asks for with `flush` and
`shortest`.
-/

namespace Wasmline

open Text Line

/-! ### Patterns and the order of their matches -/

/-- A pattern for a piece of a line. -/
inductive Pattern where
  | word (text : List Char)
  /-- A character of a class. -/
  | one (p : Char → Bool)
  /-- Characters of a class, as many as will do if it is greedy and otherwise as few. -/
  | many (greedy : Bool) (p : Char → Bool)
  | optional (a : Pattern)
  | either (a b : Pattern)
  | seq (a b : Pattern)
  | group (n : Nat) (a : Pattern)

/-- The text that a group has matched, and the line behind it. -/
structure Capture where
  group : Nat
  text : List Char
  behind : List Char

/-- A place in a line: what is left of the line there, and what has been captured in front of it. -/
structure Cursor where
  rest : List Char
  captures : List Capture

/-- What has been captured, if nothing is left. -/
def Cursor.finished? (cursor : Cursor) : Option (List Capture) :=
  if cursor.rest.isEmpty then some cursor.captures else none

/-- What can be left behind a run of characters of a class, in the order of preference. -/
def runsLeft (greedy : Bool) (p : Char → Bool) : List Char → List (List Char)
  | [] => [[]]
  | c :: s =>
    if p c then
      if greedy then runsLeft greedy p s ++ [c :: s] else (c :: s) :: runsLeft greedy p s
    else [c :: s]

namespace Pattern

/-- The places to which a pattern can lead, in the order of preference. -/
def ways : Pattern → Cursor → List Cursor
  | word text, cursor => (after? text cursor.rest).toList.map fun s => ⟨s, cursor.captures⟩
  | one p, cursor =>
    match cursor.rest with
    | [] => []
    | c :: s => if p c then [⟨s, cursor.captures⟩] else []
  | many greedy p, cursor => (runsLeft greedy p cursor.rest).map fun s => ⟨s, cursor.captures⟩
  | optional a, cursor => a.ways cursor ++ [cursor]
  | either a b, cursor => a.ways cursor ++ b.ways cursor
  | seq a b, cursor => (a.ways cursor).flatMap b.ways
  | group n a, cursor => (a.ways cursor).map fun ⟨s, captures⟩ =>
      ⟨s, ⟨n, cursor.rest.take (cursor.rest.length - s.length), s⟩ :: captures⟩

/-- The captures of the first way that leads to the end of the line. -/
def finish? (a : Pattern) (cursor : Cursor) : Option (List Capture) :=
  (a.ways cursor).findSome? Cursor.finished?

/-- The captures of a pattern that is to match a whole line. -/
def captures? (a : Pattern) (line : List Char) : Option (List Capture) :=
  a.finish? ⟨line, []⟩

/-- Patterns one behind the other. -/
def all : List Pattern → Pattern
  | [] => word []
  | a :: as => seq a (all as)

def oneOrMore (greedy : Bool) (p : Char → Bool) : Pattern :=
  seq (one p) (many greedy p)

def blanks : Pattern :=
  many true isBlank

def gap : Pattern :=
  oneOrMore true isBlank

def name : Pattern :=
  seq (one startsName) (many true inName)

def semicolon : Pattern :=
  optional (word [';'])

/-! ### The four patterns -/

def fromClause : Pattern :=
  all [oneOrMore false inClause, gap, word "from".toList, gap]

def importLine : Pattern :=
  all [either (word "import".toList) (word "export".toList), gap, optional fromClause, one isQuote,
    group 1 (oneOrMore true fun c => !isQuote c), one isQuote, blanks, semicolon]

def integer : Pattern :=
  all [optional (word ['-']), oneOrMore true isDigit]

def call : Pattern :=
  all [group 1 name, blanks, word ['('], blanks, word [')']]

/-- The pattern of a function up to `return`. -/
def functionFront : Pattern :=
  all [optional (group 1 (seq (word "export".toList) gap)), word "function".toList, gap, group 2 name,
    blanks, word ['('], blanks, word [')'], blanks, word [':'], blanks, word "i32".toList, blanks,
    word ['\x7b'], blanks, word "return".toList]

/-- The pattern of a function behind its body. -/
def functionEnd : Pattern :=
  all [blanks, semicolon, blanks, word ['\x7d']]

/-- The pattern of a body and what is behind it. Nothing else is known of a body than that it stands on
one line. -/
def functionBody : Pattern :=
  seq (group 3 (many false fun c => c != '\n')) functionEnd

def functionLine : Pattern :=
  seq functionFront (seq gap functionBody)

end Pattern

/-- What a group has captured. -/
def captured? (n : Nat) (captures : List Capture) : Option Capture :=
  captures.find? fun capture => capture.group == n

/-- The parts of a function by the groups of its pattern. -/
def FunctionLine.ofCaptures? (line : List Char) (captures : List Capture) : Option FunctionLine := do
  let name ← captured? 2 captures
  let body ← captured? 3 captures
  some {
    exported := (captured? 1 captures).isSome
    name := name.text
    front := line.take (line.length - (body.text ++ body.behind).length)
    body := body.text }

/-! ### The ways of a pattern -/

theorem mem_runsLeft {greedy : Bool} {p : Char → Bool} {s rest : List Char} :
    rest ∈ runsLeft greedy p s ↔ ∃ front, (∀ c ∈ front, p c = true) ∧ s = front ++ rest := by
  induction s with
  | nil => simp [runsLeft, and_comm]
  | cons c s ih =>
    by_cases hc : p c = true
    · have hmem : rest ∈ runsLeft greedy p (c :: s) ↔ rest = c :: s ∨ rest ∈ runsLeft greedy p s := by
        cases greedy <;> simp [runsLeft, hc, or_comm]
      rw [hmem, ih]
      constructor
      · rintro (rfl | ⟨front, hfront, rfl⟩)
        · exact ⟨[], List.forall_mem_nil _, rfl⟩
        · exact ⟨c :: front, List.forall_mem_cons.mpr ⟨hc, hfront⟩, rfl⟩
      · rintro ⟨_ | ⟨d, front⟩, hfront, hs⟩
        · exact .inl hs.symm
        · exact .inr ⟨front, (List.forall_mem_cons.mp hfront).2, (List.cons.inj hs).2⟩
    · rw [runsLeft, if_neg hc, List.mem_singleton]
      constructor
      · rintro rfl
        exact ⟨[], List.forall_mem_nil _, rfl⟩
      · rintro ⟨_ | ⟨d, front⟩, hfront, hs⟩
        · exact hs.symm
        · obtain ⟨rfl, -⟩ := List.cons.inj hs
          exact absurd (List.forall_mem_cons.mp hfront).1 hc

namespace Pattern

variable {a b : Pattern} {as : List Pattern} {cursor cursor' : Cursor} {p : Char → Bool} {greedy : Bool}

theorem mem_ways_word {text : List Char} :
    cursor' ∈ (word text).ways cursor ↔
      ∃ s, cursor.rest = text ++ s ∧ ⟨s, cursor.captures⟩ = cursor' := by
  simp [ways, after?_eq_some_iff]

theorem mem_ways_one :
    cursor' ∈ (one p).ways cursor ↔
      ∃ s, (∃ c, p c = true ∧ cursor.rest = c :: s) ∧ ⟨s, cursor.captures⟩ = cursor' := by
  obtain ⟨_ | ⟨c, s⟩, captures⟩ := cursor
  · simp [ways]
  · by_cases hc : p c = true
    · simp only [ways, hc, if_true, List.mem_singleton]
      grind
    · simp only [ways, hc]
      grind

theorem mem_ways_many :
    cursor' ∈ (many greedy p).ways cursor ↔
      ∃ s, (∃ front, (∀ c ∈ front, p c = true) ∧ cursor.rest = front ++ s) ∧
        ⟨s, cursor.captures⟩ = cursor' := by
  simp only [ways, List.mem_map, mem_runsLeft]

theorem mem_ways_optional :
    cursor' ∈ (optional a).ways cursor ↔ cursor' ∈ a.ways cursor ∨ cursor' = cursor := by
  simp [ways]

theorem mem_ways_either :
    cursor' ∈ (either a b).ways cursor ↔ cursor' ∈ a.ways cursor ∨ cursor' ∈ b.ways cursor := by
  simp [ways]

theorem mem_ways_seq :
    cursor' ∈ (seq a b).ways cursor ↔ ∃ mid, mid ∈ a.ways cursor ∧ cursor' ∈ b.ways mid := by
  simp [ways]

theorem mem_ways_group {n : Nat} :
    cursor' ∈ (group n a).ways cursor ↔ ∃ mid, mid ∈ a.ways cursor ∧
      ⟨mid.rest, ⟨n, cursor.rest.take (cursor.rest.length - mid.rest.length), mid.rest⟩ ::
        mid.captures⟩ = cursor' := by
  simp [ways]

theorem mem_ways_all_nil : cursor' ∈ (all []).ways cursor ↔ cursor = cursor' := by
  simp [all, mem_ways_word]

theorem mem_ways_all_cons :
    cursor' ∈ (all (a :: as)).ways cursor ↔ ∃ mid, mid ∈ a.ways cursor ∧ cursor' ∈ (all as).ways mid :=
  mem_ways_seq

/-! ### Pieces -/

theorem mem_ways_oneOrMore :
    cursor' ∈ (oneOrMore greedy p).ways cursor ↔
      ∃ s, (∃ front, front ≠ [] ∧ (∀ c ∈ front, p c = true) ∧ cursor.rest = front ++ s) ∧
        ⟨s, cursor.captures⟩ = cursor' := by
  simp only [oneOrMore, mem_ways_seq, mem_ways_one, mem_ways_many, exists_exists_and_eq_and]
  constructor
  · rintro ⟨s, ⟨c, hc, hrest⟩, s', ⟨front, hfront, rfl⟩, rfl⟩
    exact ⟨s', ⟨c :: front, List.cons_ne_nil _ _, List.forall_mem_cons.mpr ⟨hc, hfront⟩, hrest⟩, rfl⟩
  · rintro ⟨s, ⟨_ | ⟨c, front⟩, hne, hfront, hrest⟩, rfl⟩
    · exact absurd rfl hne
    · obtain ⟨hc, hfront⟩ := List.forall_mem_cons.mp hfront
      exact ⟨front ++ s, ⟨c, hc, hrest⟩, s, ⟨front, hfront, rfl⟩, rfl⟩

theorem mem_ways_blanks :
    cursor' ∈ blanks.ways cursor ↔
      ∃ s, (∃ w : Blanks, cursor.rest = w.text ++ s) ∧ ⟨s, cursor.captures⟩ = cursor' := by
  simp only [blanks, mem_ways_many]
  constructor
  · rintro ⟨s, ⟨front, hfront, hrest⟩, rfl⟩
    exact ⟨s, ⟨⟨front, hfront⟩, hrest⟩, rfl⟩
  · rintro ⟨s, ⟨w, hrest⟩, rfl⟩
    exact ⟨s, ⟨w.text, w.blank, hrest⟩, rfl⟩

theorem mem_ways_gap :
    cursor' ∈ gap.ways cursor ↔
      ∃ s, (∃ w : Gap, cursor.rest = w.text ++ s) ∧ ⟨s, cursor.captures⟩ = cursor' := by
  simp only [gap, mem_ways_oneOrMore]
  constructor
  · rintro ⟨s, ⟨front, hne, hfront, hrest⟩, rfl⟩
    exact ⟨s, ⟨⟨⟨front, hfront⟩, hne⟩, hrest⟩, rfl⟩
  · rintro ⟨s, ⟨w, hrest⟩, rfl⟩
    exact ⟨s, ⟨w.text, w.ne_nil, w.blank, hrest⟩, rfl⟩

theorem mem_ways_name :
    cursor' ∈ name.ways cursor ↔
      ∃ s, (∃ n : Identifier, cursor.rest = n.text ++ s) ∧ ⟨s, cursor.captures⟩ = cursor' := by
  simp only [name, mem_ways_seq, mem_ways_one, mem_ways_many, exists_exists_and_eq_and]
  constructor
  · rintro ⟨s, ⟨c, hc, hrest⟩, s', ⟨front, hfront, rfl⟩, rfl⟩
    exact ⟨s', ⟨⟨c, front, hc, hfront⟩, hrest⟩, rfl⟩
  · rintro ⟨s, ⟨n, hrest⟩, rfl⟩
    exact ⟨n.rest ++ s, ⟨n.first, n.starts, hrest⟩, s, ⟨n.rest, n.goesOn, rfl⟩, rfl⟩

theorem mem_ways_optional_word {text : List Char} :
    cursor' ∈ (optional (word text)).ways cursor ↔
      ∃ s, (∃ present : Bool, cursor.rest = (if present then text else []) ++ s) ∧
        ⟨s, cursor.captures⟩ = cursor' := by
  simp only [mem_ways_optional, mem_ways_word]
  constructor
  · rintro (⟨s, hrest, rfl⟩ | rfl)
    · exact ⟨s, ⟨true, hrest⟩, rfl⟩
    · exact ⟨_, ⟨false, rfl⟩, rfl⟩
  · rintro ⟨s, ⟨present, hrest⟩, rfl⟩
    cases present with
    | true => exact .inl ⟨s, hrest, rfl⟩
    | false =>
        obtain rfl : cursor.rest = s := hrest
        exact .inr rfl

theorem mem_ways_semicolon :
    cursor' ∈ semicolon.ways cursor ↔
      ∃ s, (∃ present, cursor.rest = semicolonText present ++ s) ∧ ⟨s, cursor.captures⟩ = cursor' :=
  mem_ways_optional_word

/-! ### Matches of a whole line -/

/-- A match is one of the ways to the end of the line. -/
theorem mem_of_finish?_eq_some {captures : List Capture} (h : a.finish? cursor = some captures) :
    ⟨[], captures⟩ ∈ a.ways cursor := by
  obtain ⟨⟨s, captures'⟩, hmem, hfound⟩ := List.exists_of_findSome?_eq_some h
  rw [Cursor.finished?, Option.ite_none_right_eq_some, List.isEmpty_iff] at hfound
  obtain ⟨rfl, hsame⟩ := hfound
  exact Option.some.inj hsame ▸ hmem

/-- There is a match if there is a way to the end of the line. -/
theorem isSome_finish?_of_mem {captures : List Capture} (h : ⟨[], captures⟩ ∈ a.ways cursor) :
    (a.finish? cursor).isSome = true :=
  List.findSome?_isSome_iff.mpr ⟨_, h, rfl⟩

/-- Of two patterns one behind the other, the second decides which way of the first it is. -/
theorem finish?_seq (a b : Pattern) (cursor : Cursor) :
    (seq a b).finish? cursor = (a.ways cursor).findSome? b.finish? := by
  change ((a.ways cursor).flatMap b.ways).findSome? Cursor.finished? = _
  induction a.ways cursor with
  | nil => rfl
  | cons mid mids ih =>
    rw [List.flatMap_cons, List.findSome?_append, ih, List.findSome?_cons, ← finish?]
    cases b.finish? mid <;> rfl

/-- What is read of a line is what a pattern finds, if a match always has it captured and there is a
match where something can be read. -/
theorem eq_bind_captures? {β : Type} {line : List Char} {read : Option β}
    {make : List Capture → Option β}
    (hsound : ∀ captures, a.captures? line = some captures → ∃ x, make captures = some x ∧ read = some x)
    (hcomplete : read.isSome = true → (a.captures? line).isSome = true) :
    read = (a.captures? line).bind make := by
  cases hmatch : a.captures? line with
  | some captures =>
      obtain ⟨x, hmake, hread⟩ := hsound captures hmatch
      rw [hread, Option.bind_some, hmake]
  | none =>
      rw [hmatch] at hcomplete
      rw [Option.bind_none]
      exact Option.not_isSome_iff_eq_none.mp fun h => Bool.false_ne_true (hcomplete h)

end Pattern

/-! ### Integers, calls and imports -/

/-- The ways to match an integer. -/
theorem Pattern.mem_ways_integer {s : List Char} {captures : List Capture} :
    ⟨[], captures⟩ ∈ integer.ways ⟨s, []⟩ ↔ ∃ (negative : Bool) (digits : List Char), digits ≠ [] ∧
      (∀ c ∈ digits, isDigit c = true) ∧ s = (if negative then ['-'] else []) ++ digits ∧
        [] = captures := by
  simp only [integer, mem_ways_all_cons, mem_ways_all_nil, mem_ways_optional_word, mem_ways_oneOrMore,
    exists_exists_and_eq_and]
  constructor
  · rintro ⟨_, ⟨negative, rfl⟩, _, ⟨digits, hne, hall, rfl⟩, hend⟩
    obtain ⟨rfl, hcaptures⟩ := Cursor.mk.inj hend
    exact ⟨negative, digits, hne, hall, by rw [List.append_nil], hcaptures⟩
  · rintro ⟨negative, digits, hne, hall, rfl, rfl⟩
    exact ⟨digits, ⟨negative, rfl⟩, [], ⟨digits, hne, hall, by rw [List.append_nil]⟩, rfl⟩

/-- **A text has the form of an integer exactly if the pattern of integers matches it.** -/
theorem isSome_digits?_eq_captures? (s : List Char) :
    (digits? s).isSome = (Pattern.integer.captures? s).isSome := by
  rw [Bool.eq_iff_iff, Option.isSome_iff_exists, Prod.exists]
  simp only [digits?_eq_some_iff]
  constructor
  · rintro ⟨negative, digits, rfl, hne, hall⟩
    apply Pattern.isSome_finish?_of_mem
    refine Pattern.mem_ways_integer.mpr ⟨negative, digits, hne, List.all_eq_true.mp hall, ?_, rfl⟩
    cases negative <;> rfl
  · intro hmatch
    obtain ⟨captures, hmatch⟩ := Option.isSome_iff_exists.mp hmatch
    obtain ⟨negative, digits, hne, hall, rfl, -⟩ :=
      Pattern.mem_ways_integer.mp (Pattern.mem_of_finish?_eq_some hmatch)
    refine ⟨negative, digits, ?_, hne, List.all_eq_true.mpr hall⟩
    cases negative <;> rfl

/-- The ways to match a call. -/
theorem Pattern.mem_ways_call {s : List Char} {captures : List Capture} :
    ⟨[], captures⟩ ∈ call.ways ⟨s, []⟩ ↔ ∃ (n : Identifier) (w w' : Blanks),
      s = n.text ++ (w.text ++ '(' :: (w'.text ++ [')'])) ∧
        [⟨1, n.text, w.text ++ '(' :: (w'.text ++ [')'])⟩] = captures := by
  simp only [call, mem_ways_all_cons, mem_ways_all_nil, mem_ways_group, mem_ways_name, mem_ways_blanks,
    mem_ways_word, exists_exists_and_eq_and]
  constructor
  · rintro ⟨_, ⟨n, rfl⟩, _, ⟨w, rfl⟩, _, rfl, _, ⟨w', rfl⟩, _, rfl, hend⟩
    obtain ⟨rfl, hcaptures⟩ := Cursor.mk.inj hend
    rw [take_length_sub] at hcaptures
    exact ⟨n, w, w', rfl, hcaptures⟩
  · rintro ⟨n, w, w', rfl, rfl⟩
    refine ⟨_, ⟨n, rfl⟩, _, ⟨w, rfl⟩, _, rfl, _, ⟨w', rfl⟩, [], rfl, ?_⟩
    rw [take_length_sub]

/-- **The name of a call is what the pattern of calls captures.** -/
theorem call?_eq_captures? (s : List Char) :
    call? s = (Pattern.call.captures? s).bind fun captures =>
      (captured? 1 captures).map Capture.text := by
  apply Pattern.eq_bind_captures?
  · intro captures hmatch
    obtain ⟨n, w, w', hs, rfl⟩ := Pattern.mem_ways_call.mp (Pattern.mem_of_finish?_eq_some hmatch)
    exact ⟨n.text, rfl, call?_eq_some_iff.mpr ⟨n, w, w', rfl, hs⟩⟩
  · intro hread
    obtain ⟨name, hread⟩ := Option.isSome_iff_exists.mp hread
    obtain ⟨n, w, w', -, hs⟩ := call?_eq_some_iff.mp hread
    exact Pattern.isSome_finish?_of_mem (Pattern.mem_ways_call.mpr ⟨n, w, w', hs, rfl⟩)

theorem Pattern.mem_ways_optional_fromClause {cursor cursor' : Cursor} :
    cursor' ∈ (optional fromClause).ways cursor ↔
      ∃ s, (∃ from? : Option FromClause, cursor.rest = (from?.map FromClause.text).getD [] ++ s) ∧
        ⟨s, cursor.captures⟩ = cursor' := by
  have hsome : cursor' ∈ fromClause.ways cursor ↔
      ∃ s, (∃ f : FromClause, cursor.rest = f.text ++ s) ∧ ⟨s, cursor.captures⟩ = cursor' := by
    unfold fromClause FromClause.text
    -- Spelled out, the word would be taken apart as a list.
    generalize "from".toList = word
    simp only [mem_ways_all_cons, mem_ways_all_nil, mem_ways_oneOrMore, mem_ways_gap, mem_ways_word,
      exists_exists_and_eq_and, List.append_assoc]
    constructor
    · rintro ⟨_, ⟨clause, hne, hinside, hrest⟩, _, ⟨w, rfl⟩, _, rfl, s, ⟨w', rfl⟩, rfl⟩
      exact ⟨s, ⟨⟨⟨clause, hne, hinside⟩, w, w'⟩, hrest⟩, rfl⟩
    · rintro ⟨s, ⟨f, hrest⟩, rfl⟩
      exact ⟨_, ⟨f.clause.text, f.clause.ne_nil, f.clause.inside, hrest⟩, _, ⟨f.beforeFrom, rfl⟩, _, rfl,
        s, ⟨f.afterFrom, rfl⟩, rfl⟩
  rw [mem_ways_optional, hsome]
  constructor
  · rintro (⟨s, ⟨f, hrest⟩, rfl⟩ | rfl)
    · exact ⟨s, ⟨some f, hrest⟩, rfl⟩
    · exact ⟨_, ⟨none, rfl⟩, rfl⟩
  · rintro ⟨s, ⟨from?, hrest⟩, rfl⟩
    cases from? with
    | some f => exact .inl ⟨s, ⟨f, hrest⟩, rfl⟩
    | none =>
        obtain rfl : cursor.rest = s := hrest
        exact .inr rfl

theorem Pattern.mem_ways_keyword {cursor cursor' : Cursor} :
    cursor' ∈ (either (word "import".toList) (word "export".toList)).ways cursor ↔
      ∃ s, (∃ reexport, cursor.rest = ImportSyntax.keywordText reexport ++ s) ∧
        ⟨s, cursor.captures⟩ = cursor' := by
  rw [mem_ways_either, mem_ways_word, mem_ways_word]
  constructor
  · rintro (⟨s, hrest, rfl⟩ | ⟨s, hrest, rfl⟩)
    · exact ⟨s, ⟨false, hrest⟩, rfl⟩
    · exact ⟨s, ⟨true, hrest⟩, rfl⟩
  · rintro ⟨s, ⟨reexport, hrest⟩, rfl⟩
    cases reexport with
    | false => exact .inl ⟨s, hrest, rfl⟩
    | true => exact .inr ⟨s, hrest, rfl⟩

/-- What stands behind the specifier in the line of an import. -/
def ImportSyntax.ending (i : ImportSyntax) : List Char :=
  i.closing.sign :: (i.beforeSemicolon.text ++ semicolonText i.semicolon)

/-- The ways to match an import. -/
theorem Pattern.mem_ways_importLine {line : List Char} {captures : List Capture} :
    ⟨[], captures⟩ ∈ importLine.ways ⟨line, []⟩ ↔
      ∃ i : ImportSyntax, line = i.text ∧ [⟨1, i.specifier.text, i.ending⟩] = captures := by
  simp only [importLine, mem_ways_all_cons, mem_ways_all_nil, mem_ways_keyword, mem_ways_gap,
    mem_ways_optional_fromClause, mem_ways_one, mem_ways_group, mem_ways_oneOrMore, mem_ways_blanks,
    mem_ways_semicolon, exists_exists_and_eq_and]
  constructor
  · rintro ⟨_, ⟨reexport, rfl⟩, _, ⟨gap, rfl⟩, _, ⟨from?, rfl⟩, _, ⟨opening, hopening, rfl⟩, _,
      ⟨specifier, hne, hunquoted, rfl⟩, _, ⟨closing, hclosing, rfl⟩, _, ⟨w, rfl⟩, _,
      ⟨semicolon, rfl⟩, hend⟩
    obtain ⟨rfl, hcaptures⟩ := Cursor.mk.inj hend
    rw [take_length_sub] at hcaptures
    have hinside : ∀ c ∈ specifier, isQuote c = false := fun c hc => by simpa using hunquoted c hc
    refine ⟨⟨reexport, gap, from?, ⟨opening, hopening⟩, ⟨specifier, hne, hinside⟩, ⟨closing, hclosing⟩,
      w, semicolon⟩, ?_, ?_⟩
    · simp only [ImportSyntax.text, ImportSyntax.frontText, List.append_assoc, List.append_nil]
    · rw [List.append_nil] at hcaptures
      exact hcaptures
  · rintro ⟨i, rfl, rfl⟩
    have hunquoted : ∀ c ∈ i.specifier.text, (!isQuote c) = true := fun c hc => by
      rw [i.specifier.unquoted c hc, Bool.not_false]
    refine ⟨_, ⟨i.reexport, rfl⟩, _, ⟨i.afterKeyword, List.append_assoc _ _ _⟩, _, ⟨i.from?, rfl⟩, _,
      ⟨i.opening.sign, i.opening.quotes, rfl⟩, _, ⟨i.specifier.text, i.specifier.ne_nil, hunquoted, rfl⟩,
      _, ⟨i.closing.sign, i.closing.quotes, rfl⟩, _, ⟨i.beforeSemicolon, rfl⟩, [],
      ⟨i.semicolon, (List.append_nil _).symm⟩, ?_⟩
    rw [take_length_sub]
    rfl

/-- **The specifier of an import is what the pattern of imports captures.** -/
theorem import?_eq_captures? (line : List Char) :
    Line.import? line = (Pattern.importLine.captures? line).bind fun captures =>
      (captured? 1 captures).map Capture.text := by
  apply Pattern.eq_bind_captures?
  · intro captures hmatch
    obtain ⟨i, hline, rfl⟩ := Pattern.mem_ways_importLine.mp (Pattern.mem_of_finish?_eq_some hmatch)
    exact ⟨i.specifier.text, rfl, import?_eq_some_iff.mpr ⟨i, hline.symm, rfl⟩⟩
  · intro hread
    obtain ⟨specifier, hread⟩ := Option.isSome_iff_exists.mp hread
    obtain ⟨i, hline, -⟩ := import?_eq_some_iff.mp hread
    exact Pattern.isSome_finish?_of_mem (Pattern.mem_ways_importLine.mpr ⟨i, hline.symm, rfl⟩)

/-! ### What the order of the ways comes to -/

/-- Behind a run of characters, less should be left if it is greedy, and otherwise more. -/
def PrefersLeft (greedy : Bool) (s t : List Char) : Prop :=
  if greedy then s.length < t.length else t.length < s.length

theorem pairwise_runsLeft (greedy : Bool) (p : Char → Bool) (s : List Char) :
    (runsLeft greedy p s).Pairwise (PrefersLeft greedy) := by
  induction s with
  | nil => exact List.pairwise_singleton _ _
  | cons c s ih =>
    have hshorter : ∀ t ∈ runsLeft greedy p s, t.length < (c :: s).length := by
      intro t ht
      obtain ⟨front, -, rfl⟩ := mem_runsLeft.mp ht
      simp only [List.length_cons, List.length_append]
      omega
    unfold runsLeft
    split
    · cases greedy with
      | true =>
          refine List.pairwise_append.mpr ⟨ih, List.pairwise_singleton _ _, ?_⟩
          intro t ht u hu
          rw [List.mem_singleton.mp hu]
          exact hshorter t ht
      | false => exact List.pairwise_cons.mpr ⟨hshorter, ih⟩
    · exact List.pairwise_singleton _ _

/-- What is found first in a list that is in the order of preference is preferred to all else that could
be found. -/
theorem exists_preferred {α β : Type} {R : α → α → Prop} {k : α → Option β} {x : β} {l : List α}
    (hl : l.Pairwise R) (h : l.findSome? k = some x) :
    ∃ a ∈ l, k a = some x ∧ ∀ b ∈ l, (k b).isSome = true → b = a ∨ R a b := by
  induction l with
  | nil => cases h
  | cons a l ih =>
    obtain ⟨hR, hl⟩ := List.pairwise_cons.mp hl
    rw [List.findSome?_cons] at h
    cases ha : k a with
    | some y =>
        rw [ha] at h
        refine ⟨a, List.mem_cons_self, ha.trans h, fun b hb _ => ?_⟩
        exact (List.mem_cons.mp hb).imp_right (hR b)
    | none =>
        rw [ha] at h
        obtain ⟨a', ha', hx, hfirst⟩ := ih hl h
        refine ⟨a', List.mem_cons_of_mem a ha', hx, fun b hb hsome => ?_⟩
        rcases List.mem_cons.mp hb with rfl | hb
        · rw [ha] at hsome
          cases hsome
        · exact hfirst b hb hsome

/-- A run is taken so that what is left is preferred to whatever else would do. -/
theorem exists_of_findSome?_runsLeft {β : Type} {greedy : Bool} {p : Char → Bool} {s : List Char}
    {k : List Char → Option β} {x : β} (h : (runsLeft greedy p s).findSome? k = some x) :
    ∃ front rest, (∀ c ∈ front, p c = true) ∧ s = front ++ rest ∧ k rest = some x ∧
      ∀ front' rest', (∀ c ∈ front', p c = true) → s = front' ++ rest' → (k rest').isSome = true →
        rest' = rest ∨ PrefersLeft greedy rest rest' := by
  obtain ⟨rest, hrest, hx, hfirst⟩ := exists_preferred (pairwise_runsLeft greedy p s) h
  obtain ⟨front, hfront, hs⟩ := mem_runsLeft.mp hrest
  exact ⟨front, rest, hfront, hs, hx, fun front' rest' hfront' hs' =>
    hfirst rest' (mem_runsLeft.mpr ⟨front', hfront', hs'⟩)⟩

namespace Pattern

variable {b : Pattern} {cursor : Cursor} {captures : List Capture}

/-- A gap leaves no more than it has to. -/
theorem exists_of_finish?_gap (h : (seq gap b).finish? cursor = some captures) :
    ∃ (w : Gap) (s : List Char), cursor.rest = w.text ++ s ∧
      b.finish? ⟨s, cursor.captures⟩ = some captures ∧
        ∀ (w' : Gap) (s' : List Char), cursor.rest = w'.text ++ s' →
          (b.finish? ⟨s', cursor.captures⟩).isSome = true → s.length ≤ s'.length := by
  obtain ⟨_ | ⟨c, rest⟩, captures'⟩ := cursor
  · cases h
  · rw [finish?_seq] at h
    by_cases hc : isBlank c = true
    · simp only [gap, oneOrMore, ways, hc, if_true, List.flatMap_singleton, List.findSome?_map] at h
      obtain ⟨w, s, hw, rfl, hfound, hfirst⟩ := exists_of_findSome?_runsLeft h
      refine ⟨⟨⟨c :: w, List.forall_mem_cons.mpr ⟨hc, hw⟩⟩, List.cons_ne_nil _ _⟩, s, rfl, hfound, ?_⟩
      rintro w' s' hrest hsome
      obtain ⟨d, v, hv⟩ := List.exists_cons_of_ne_nil w'.ne_nil
      have hblank := w'.blank
      rw [hv, List.forall_mem_cons] at hblank
      rw [hv] at hrest
      rcases hfirst v s' hblank.2 (List.cons.inj hrest).2 hsome with rfl | hless
      · exact le_rfl
      · exact Nat.le_of_lt hless
    · simp [gap, oneOrMore, ways, hc] at h

/-- A lazy group takes no more than it has to. -/
theorem exists_of_finish?_lazy {n : Nat} {p : Char → Bool}
    (h : (seq (group n (many false p)) b).finish? cursor = some captures) :
    ∃ front s, cursor.rest = front ++ s ∧
      b.finish? ⟨s, ⟨n, front, s⟩ :: cursor.captures⟩ = some captures ∧
        ∀ front' s', (∀ c ∈ front', p c = true) → cursor.rest = front' ++ s' →
          (b.finish? ⟨s', ⟨n, front', s'⟩ :: cursor.captures⟩).isSome = true →
            front.length ≤ front'.length := by
  rw [finish?_seq] at h
  simp only [ways, List.map_map, List.findSome?_map] at h
  obtain ⟨front, s, -, hrest, hfound, hfirst⟩ := exists_of_findSome?_runsLeft h
  refine ⟨front, s, hrest, ?_, fun front' s' hfront' hrest' hsome => ?_⟩
  · simpa only [Function.comp_apply, hrest, take_length_sub] using hfound
  · have hlength := congrArg List.length (hrest.symm.trans hrest')
    rw [List.length_append, List.length_append] at hlength
    -- what is left is longest, so what is taken is shortest
    have hleft := hfirst front' s' hfront' hrest'
    simp only [Function.comp_apply, hrest', take_length_sub] at hleft
    rcases hleft hsome with rfl | hmore
    · omega
    · have : s'.length < s.length := hmore
      omega

end Pattern

/-! ### Functions -/

/-- What stands behind the name in the header of a function. -/
def Header.behindName (header : Header) : List Char :=
  header.beforeOpen.text ++ '(' :: (header.beforeClose.text ++ ')' ::
    (header.beforeColon.text ++ ':' :: (header.beforeType.text ++ ("i32".toList ++
    (header.beforeBrace.text ++ '\x7b' :: (header.beforeReturn.text ++ ("return".toList ++
    header.beforeBody.text)))))))

/-- Whatever ends in a brace has a body. -/
theorem exists_ending_of_concat (inner : List Char) :
    ∃ body w semicolon w', inner ++ ['\x7d'] = body ++ endingText w semicolon w' := by
  obtain ⟨w, semicolon, w', hinner⟩ := exists_bodyText_append inner
  refine ⟨bodyText inner, w, semicolon, w', ?_⟩
  rw [endingText_eq, ← List.append_assoc, ← hinner]

/-- A blank in front of a body and its ending can be left out. -/
theorem exists_ending_of_cons {c : Char} {s body : List Char} {w : Blanks} {semicolon : Bool}
    {w' : Blanks} (hc : isBlank c = true) (h : c :: s = body ++ endingText w semicolon w') :
    ∃ body w semicolon w', s = body ++ endingText w semicolon w' := by
  rw [endingText_eq, ← List.append_assoc] at h
  rcases List.cons_eq_append_iff.mp h with ⟨-, hbrace⟩ | ⟨inner, -, rfl⟩
  · obtain ⟨rfl, -⟩ := List.cons.inj hbrace
    exact absurd hc (by decide)
  · exact exists_ending_of_concat inner

theorem forall_bne_of_notMem {sign : Char} {s front rest : List Char} (h : sign ∉ s)
    (hs : s = front ++ rest) : ∀ c ∈ front, (c != sign) = true := by
  intro c hc
  rw [bne_iff_ne]
  rintro rfl
  exact h (hs ▸ List.mem_append_left rest hc)

namespace Pattern

variable {cursor : Cursor} {captures : List Capture}

theorem mem_ways_functionEnd :
    ⟨[], captures⟩ ∈ functionEnd.ways cursor ↔
      ∃ w semicolon w', cursor.rest = endingText w semicolon w' ∧ cursor.captures = captures := by
  simp only [functionEnd, mem_ways_all_cons, mem_ways_all_nil, mem_ways_blanks, mem_ways_semicolon,
    mem_ways_word, exists_exists_and_eq_and]
  constructor
  · rintro ⟨_, ⟨w, hrest⟩, _, ⟨present, rfl⟩, _, ⟨w', rfl⟩, _, rfl, hend⟩
    obtain ⟨rfl, hcaptures⟩ := Cursor.mk.inj hend
    exact ⟨w, present, w', hrest, hcaptures⟩
  · rintro ⟨w, present, w', hrest, rfl⟩
    exact ⟨_, ⟨w, hrest⟩, _, ⟨present, rfl⟩, _, ⟨w', rfl⟩, [], rfl, rfl⟩

/-- A body can be found in front of an ending. -/
theorem isSome_finish?_functionBody {body : List Char} {w : Blanks} {semicolon : Bool} {w' : Blanks}
    (hline : '\n' ∉ cursor.rest) (hrest : cursor.rest = body ++ endingText w semicolon w') :
    (functionBody.finish? cursor).isSome = true := by
  apply isSome_finish?_of_mem
  refine mem_ways_seq.mpr ⟨_, mem_ways_group.mpr ⟨_, mem_ways_many.mpr ⟨_, ⟨body, ?_, hrest⟩, rfl⟩, rfl⟩,
    mem_ways_functionEnd.mpr ⟨w, semicolon, w', rfl, rfl⟩⟩
  exact forall_bne_of_notMem hline hrest

/-- The body that is found is the shortest. -/
theorem exists_of_finish?_functionBody (hline : '\n' ∉ cursor.rest)
    (h : functionBody.finish? cursor = some captures) :
    ∃ body w semicolon w', cursor.rest = body ++ endingText w semicolon w' ∧
      ⟨3, body, endingText w semicolon w'⟩ :: cursor.captures = captures ∧
        ∀ body' v semicolon' v', cursor.rest = body' ++ endingText v semicolon' v' →
          body.length ≤ body'.length := by
  obtain ⟨body, s, hrest, hend, hfirst⟩ := exists_of_finish?_lazy h
  obtain ⟨w, semicolon, w', rfl, hcaptures⟩ := mem_ways_functionEnd.mp (mem_of_finish?_eq_some hend)
  refine ⟨body, w, semicolon, w', hrest, hcaptures, fun body' v semicolon' v' hrest' => ?_⟩
  refine hfirst body' _ (forall_bne_of_notMem hline hrest') hrest' ?_
  exact isSome_finish?_of_mem (mem_ways_functionEnd.mpr ⟨v, semicolon', v', rfl, rfl⟩)

/-- The groups in front of `function`. -/
def exportCaptures (afterExport : Option Gap) (rest : List Char) : List Capture :=
  match afterExport with
  | some gap => [⟨1, FunctionSyntax.exportText (some gap), rest⟩]
  | none => []

theorem mem_ways_export {line : List Char} :
    cursor ∈ (optional (group 1 (seq (word "export".toList) gap))).ways ⟨line, []⟩ ↔
      ∃ x : Option Gap × List Char, line = FunctionSyntax.exportText x.1 ++ x.2 ∧
        ⟨x.2, exportCaptures x.1 x.2⟩ = cursor := by
  simp only [mem_ways_optional, mem_ways_group, mem_ways_seq, mem_ways_gap, mem_ways_word,
    exists_exists_and_eq_and]
  constructor
  · rintro (⟨_, ⟨_, rfl, s, ⟨gap, rfl⟩, rfl⟩, rfl⟩ | rfl)
    · refine ⟨(some gap, s), (List.append_assoc _ _ _).symm, ?_⟩
      rw [← List.append_assoc, take_length_sub]
      rfl
    · exact ⟨(none, line), rfl, rfl⟩
  · rintro ⟨⟨afterExport, s⟩, rfl, rfl⟩
    cases afterExport with
    | some gap =>
      refine .inl ⟨_, ⟨_, List.append_assoc _ _ _, s, ⟨gap, rfl⟩, rfl⟩, ?_⟩
      rw [take_length_sub]
      rfl
    | none => exact .inr rfl

/-- The ways to match a function up to the gap in front of its body. -/
theorem mem_ways_functionFront {line s : List Char} {gap : Gap} :
    ⟨gap.text ++ s, captures⟩ ∈ functionFront.ways ⟨line, []⟩ ↔
      ∃ (afterExport : Option Gap) (header : Header), header.beforeBody = gap ∧
        line = FunctionSyntax.exportText afterExport ++ (header.text ++ s) ∧
          ⟨2, header.name.text, header.behindName ++ s⟩ ::
            exportCaptures afterExport (header.text ++ s) = captures := by
  unfold functionFront Header.text Header.behindName
  rw [mem_ways_all_cons]
  simp only [mem_ways_export]
  -- Spelled out, the words would be taken apart as lists.
  generalize "function".toList = w₁, "i32".toList = w₂, "return".toList = w₃
  simp only [mem_ways_all_cons, mem_ways_all_nil, mem_ways_group, mem_ways_name, mem_ways_gap,
    mem_ways_blanks, mem_ways_word, exists_exists_and_eq_and]
  constructor
  · rintro ⟨⟨afterExport, _⟩, rfl, _, rfl, _, ⟨beforeName, rfl⟩, _, ⟨n, rfl⟩, _, ⟨beforeOpen, rfl⟩, _,
      rfl, _, ⟨beforeClose, rfl⟩, _, rfl, _, ⟨beforeColon, rfl⟩, _, rfl, _, ⟨beforeType, rfl⟩, _, rfl, _,
      ⟨beforeBrace, rfl⟩, _, rfl, _, ⟨beforeReturn, rfl⟩, _, rfl, hend⟩
    obtain ⟨rfl, hcaptures⟩ := Cursor.mk.inj hend
    refine ⟨afterExport, ⟨beforeName, n, beforeOpen, beforeClose, beforeColon, beforeType, beforeBrace,
      beforeReturn, gap⟩, rfl, ?_, ?_⟩
    · simp only [List.append_assoc, List.cons_append, List.nil_append]
    · rw [take_length_sub] at hcaptures
      simpa only [List.append_assoc, List.cons_append, List.nil_append] using hcaptures
  · rintro ⟨afterExport, header, rfl, rfl, rfl⟩
    simp only [List.append_assoc, List.cons_append]
    refine ⟨(afterExport, _), rfl, _, rfl, _, ⟨header.beforeName, rfl⟩, _, ⟨header.name, rfl⟩, _,
      ⟨header.beforeOpen, rfl⟩, _, rfl, _, ⟨header.beforeClose, rfl⟩, _, rfl, _,
      ⟨header.beforeColon, rfl⟩, _, rfl, _, ⟨header.beforeType, rfl⟩, _, rfl, _,
      ⟨header.beforeBrace, rfl⟩, _, rfl, _, ⟨header.beforeReturn, rfl⟩, _, rfl, ?_⟩
    rw [take_length_sub]

end Pattern

/-- Blanks in front of a body are left to the gap, which takes all it can. -/
theorem Pattern.flush_of_least {gap : Gap} {s body : List Char} {w : Blanks} {semicolon : Bool}
    {w' : Blanks} {captures : List Capture} (hline : '\n' ∉ s)
    (hs : s = body ++ endingText w semicolon w')
    (hleast : ∀ (gap' : Gap) (s' : List Char), gap.text ++ s = gap'.text ++ s' →
      (functionBody.finish? ⟨s', captures⟩).isSome = true → s.length ≤ s'.length) : Flush s := by
  intro c hc
  by_contra hblank
  rw [Bool.not_eq_false] at hblank
  obtain ⟨s', rfl⟩ := List.head?_eq_some_iff.mp hc
  obtain ⟨body', v, semicolon', v', hs'⟩ := exists_ending_of_cons hblank hs
  have hfound : (functionBody.finish? ⟨s', captures⟩).isSome = true :=
    isSome_finish?_functionBody (fun h => hline (List.mem_cons_of_mem c h)) hs'
  let gap' : Gap := {
    text := gap.text ++ [c]
    blank := List.forall_mem_append.mpr ⟨gap.blank, List.forall_mem_singleton.mpr hblank⟩
    ne_nil := List.concat_ne_nil c gap.text }
  have hless := hleast gap' s' (List.append_assoc gap.text [c] s').symm hfound
  rw [List.length_cons] at hless
  omega

/-- The groups give the parts of a frame. -/
theorem FunctionFrame.ofCaptures?_text (frame : FunctionFrame) (behind behind' : List Char) :
    FunctionLine.ofCaptures? frame.text (⟨3, frame.body, frame.ending⟩ ::
      ⟨2, frame.header.name.text, behind⟩ :: Pattern.exportCaptures frame.afterExport behind') =
        some frame.parts := by
  have hexported : (captured? 1 (⟨3, frame.body, frame.ending⟩ :: ⟨2, frame.header.name.text, behind⟩ ::
      Pattern.exportCaptures frame.afterExport behind')).isSome = frame.afterExport.isSome := by
    cases frame.afterExport <;> rfl
  have hfront : frame.text.take (frame.text.length - (frame.body ++ frame.ending).length) =
      frame.front := take_length_sub _ _
  rw [FunctionLine.ofCaptures?, hexported, FunctionFrame.parts, ← hfront]
  rfl

/-- **The parts of a function are what the pattern of functions captures**, in a text of one line. -/
theorem function?_eq_captures? {line : List Char} (hline : '\n' ∉ line) :
    function? line =
      (Pattern.functionLine.captures? line).bind (FunctionLine.ofCaptures? line) := by
  apply Pattern.eq_bind_captures?
  · intro captures hmatch
    rw [Pattern.captures?, Pattern.functionLine, Pattern.finish?_seq] at hmatch
    obtain ⟨⟨rest, captures'⟩, hmem, hmatch⟩ := List.exists_of_findSome?_eq_some hmatch
    -- The front is taken from any of the ways; the order matters from the gap on.
    obtain ⟨gap, s, hrest, hbody, hleast⟩ := Pattern.exists_of_finish?_gap hmatch
    obtain rfl : rest = gap.text ++ s := hrest
    obtain ⟨afterExport, header, rfl, rfl, rfl⟩ := Pattern.mem_ways_functionFront.mp hmem
    have hs : '\n' ∉ s := fun h =>
      hline (List.mem_append_right _ (List.mem_append_right _ h))
    obtain ⟨body, w, semicolon, w', hends, rfl, hshortest⟩ :=
      Pattern.exists_of_finish?_functionBody hs hbody
    have hflush := Pattern.flush_of_least hs hends hleast
    obtain rfl : s = body ++ endingText w semicolon w' := hends
    let frame : FunctionFrame := ⟨afterExport, header, body, w, semicolon, w', hflush, hshortest⟩
    refine ⟨frame.parts, ?_, function?_eq_some_iff_frame.mpr ⟨frame, frame.text_eq, rfl⟩⟩
    have hcaptures := frame.ofCaptures?_text (header.behindName ++ (frame.body ++ frame.ending))
      (header.text ++ (frame.body ++ frame.ending))
    rwa [frame.text_eq] at hcaptures
  · intro hread
    obtain ⟨f, hread⟩ := Option.isSome_iff_exists.mp hread
    obtain ⟨frame, rfl, -⟩ := function?_eq_some_iff_frame.mp hread
    have hs : '\n' ∉ frame.body ++ frame.ending := fun h => hline (List.mem_append_right _ h)
    rw [Pattern.captures?, Pattern.functionLine, Pattern.finish?_seq]
    refine List.findSome?_isSome_iff.mpr ⟨_, Pattern.mem_ways_functionFront.mpr
      ⟨frame.afterExport, frame.header, rfl, frame.text_eq, rfl⟩, ?_⟩
    rw [Pattern.finish?_seq]
    refine List.findSome?_isSome_iff.mpr ⟨_, Pattern.mem_ways_gap.mpr ⟨_, ⟨_, rfl⟩, rfl⟩, ?_⟩
    exact Pattern.isSome_finish?_functionBody hs rfl

/-- The lines of a text are read by the pattern when the blanks around them are gone. -/
theorem function?_trim_eq_captures? {text raw : List Char} (h : raw ∈ lines text) :
    function? (trim raw) =
      (Pattern.functionLine.captures? (trim raw)).bind (FunctionLine.ofCaptures? (trim raw)) := by
  apply function?_eq_captures?
  intro hbreak
  obtain ⟨w, hraw⟩ := exists_trim_append raw
  refine not_mem_lines h ?_
  rw [hraw]
  exact List.mem_append_right _ (List.mem_append_left _ hbreak)

end Wasmline
