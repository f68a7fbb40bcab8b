import Wasmline.Text.Utf8

/-!
# Visible text

What remains of a text when everything is left out that a terminal would not show: control characters
and the sequences that an escape character opens. A sequence is one of

* an escape sequence: characters from space to slash, then one final character;
* a control sequence, opened by `[`: it ends with a character from `@` to `~`;
* a command, opened by `]`: it ends with a bell;
* a device string, opened by `P`, with a head like that of a control sequence and then a string;
* a string, opened by `X`, `^` or `_`: it ends with a character in whose bytes the byte `9c` is found.

An escape character opens a new sequence anywhere, and a cancel or substitute character ends one.

Blanks among the control characters (tab, line feed, form feed, carriage return) are shown, also inside
an escape sequence or a control sequence. There they open a run of plain text, and what they have
interrupted is taken up again behind the run, unless the run holds a character beyond ASCII.
`visibleFrom_sublist` says that nothing is added or moved, `visibleFrom_eq_self` that plain text stays whole.
-/

namespace Wasmline.Text

/-- What the next character belongs to. -/
inductive Mode where
  | plain
  | escape
  | escapeTail
  | control
  | command
  | deviceStart
  | deviceParameters
  | deviceTail
  | string
  deriving DecidableEq, Repr

/-- A blank among the control characters of the ASCII range. -/
def isControlBlank (c : Char) : Bool :=
  c = '\t' || c = '\n' || c = '\x0c' || c = '\r'

/-- The code point of a character lies between two others. -/
def isWithin (low high : Nat) (c : Char) : Bool :=
  low ≤ c.toNat && c.toNat ≤ high

namespace Mode

/-- A character is shown. -/
def shows : Mode → Char → Bool
  | plain, c => isControlBlank c || (0x20 ≤ c.toNat && c ≠ '\x7f')
  | escape, c | escapeTail, c | control, c => isControlBlank c
  | _, _ => false

/-- What comes after the character that follows an escape character. -/
def opened (c : Char) : Mode :=
  if c = '[' then control
  else if c = ']' then command
  else if c = 'P' then deviceStart
  else if c = 'X' || c = '^' || c = '_' then string
  else if isWithin 0x20 0x2f c then escapeTail
  else if isWithin 0x30 0x7e c then plain
  else escape

/-- What comes after a character of the head of a device string. -/
def deviceStep (mode : Mode) (c : Char) : Mode :=
  if isWithin 0x20 0x2f c then deviceTail
  else if isWithin 0x40 0x7e c then string
  else if !isWithin 0x30 0x3f c then mode
  else if mode = deviceStart || (mode = deviceParameters && isWithin 0x30 0x3b c) then
    deviceParameters
  else string

/-- What comes after a character that is not shown. -/
def step (mode : Mode) (c : Char) : Mode :=
  if c = '\x1b' then escape
  else if c = '\x18' || c = '\x1a' then plain
  else
    match mode with
    | plain => plain
    | escape => opened c
    | escapeTail => if isWithin 0x30 0x7e c then plain else escapeTail
    | control => if isWithin 0x40 0x7e c then plain else control
    | command => if c = '\x07' then plain else command
    | string => if (utf8 [c]).contains 0x9c then plain else string
    | mode => mode.deviceStep c

/-- The mode that decides whether a character is shown: in a run of plain text it is that of plain text. -/
def judging (mode : Mode) (inRun : Bool) : Mode :=
  if inRun then plain else mode

end Mode

/-- The visible part of a text that is read in a mode, inside a run of plain text or not. -/
def visibleFrom (mode : Mode) (inRun : Bool) : List Char → List Char
  | [] => []
  | c :: rest =>
    if (mode.judging inRun).shows c then
      c :: visibleFrom (if c.toNat < 0x80 then mode else .plain) true rest
    else visibleFrom (mode.step c) false rest

/-- The visible part of a text. -/
def visible (text : String) : String :=
  String.ofList (visibleFrom .plain false text.toList)

/-- Nothing is added and nothing is moved. -/
theorem visibleFrom_sublist (mode : Mode) (inRun : Bool) (s : List Char) :
    (visibleFrom mode inRun s).Sublist s := by
  induction s generalizing mode inRun with
  | nil => exact List.Sublist.refl []
  | cons c rest ih =>
    unfold visibleFrom
    split
    · exact (ih _ _).cons_cons c
    · exact (ih _ _).cons c

/-- A text that is shown as plain text stays whole. -/
theorem visibleFrom_eq_self (inRun : Bool) {s : List Char}
    (h : ∀ c ∈ s, Mode.plain.shows c = true) : visibleFrom .plain inRun s = s := by
  induction s generalizing inRun with
  | nil => rfl
  | cons c rest ih =>
    have hshown := h c (List.mem_cons_self ..)
    have htail := ih true fun d hd => h d (List.mem_cons_of_mem c hd)
    simp [visibleFrom, Mode.judging, hshown, htail]

end Wasmline.Text
