import Wasmline.Diagnostic.Basic
import Wasmline.Proofs.Source.Recognition

/-!
# Colour adds control sequences and nothing else

`unpainted` takes every control sequence `ESC [ codes m` out of a text, where the codes are digits and
semicolons. A coloured diagnostic without its control sequences is the plain one: `unpainted_render`.

Taking sequences out does not go through concatenation, because there may be one across the seam. So what
is shown of a piece of text is what becomes of it in front of any other text (`ReadsAs`), and that can
be put together along the definition of `Diagnostic.render`. Two kinds of pieces are enough. A text
without an escape character stays, also where it looks like the inside of a sequence. And a sequence ends
at its first `m`, whatever comes next, so the text between the sequences of a style is left whole.
-/

namespace Wasmline

open Text Line

namespace Text

/-! ### Control sequences -/

/-- A character that can stand between `ESC [` and `m`. -/
def inCodes (c : Char) : Bool :=
  c.isDigit || c = ';'

/-- The codes of a control sequence. -/
structure ControlSequence where
  codes : List Char
  inside : ∀ c ∈ codes, inCodes c = true

def ControlSequence.text (e : ControlSequence) : List Char :=
  '\x1b' :: '[' :: (e.codes ++ ['m'])

/-- What stands behind the control sequence that a text opens with. -/
def behindSequence? (s : List Char) : Option (List Char) := do
  let rest ← after? ['\x1b', '['] s
  after? ['m'] (rest.dropWhile inCodes)

/-- What is taken out is a control sequence, and every control sequence is. -/
theorem behindSequence?_eq_some_iff {s rest : List Char} :
    behindSequence? s = some rest ↔ ∃ e : ControlSequence, s = e.text ++ rest := by
  unfold behindSequence?
  rw [Option.bind_eq_bind, Option.bind_eq_some_iff]
  simp only [after?_eq_some_iff]
  constructor
  · rintro ⟨inner, rfl, hbehind⟩
    obtain ⟨hsame, hinside, -⟩ := span_eq_iff.mp ⟨rfl, hbehind⟩
    refine ⟨⟨inner.takeWhile inCodes, hinside⟩, ?_⟩
    simpa [ControlSequence.text] using hsame
  · rintro ⟨e, rfl⟩
    refine ⟨e.codes ++ 'm' :: rest, by simp [ControlSequence.text], ?_⟩
    -- the codes end at the `m`, since that is no code itself
    have hstop : ∀ c ∈ ('m' :: rest).head?, inCodes c = false := by
      rintro c ⟨⟩
      decide
    exact (span_eq_iff.mpr ⟨rfl, e.inside, hstop⟩).2

theorem length_lt_of_behindSequence? {s rest : List Char} (h : behindSequence? s = some rest) :
    rest.length < s.length := by
  obtain ⟨e, rfl⟩ := behindSequence?_eq_some_iff.mp h
  simp only [ControlSequence.text, List.length_append, List.length_cons]
  omega

/-- What is left of a text when its control sequences are taken out, from the front on. -/
def withoutSequences : List Char → List Char
  | [] => []
  | c :: s =>
    match _hfound : behindSequence? (c :: s) with
    | some rest => withoutSequences rest
    | none => c :: withoutSequences s
termination_by s => s.length
decreasing_by
  · exact length_lt_of_behindSequence? ‹_›
  · exact Nat.lt_succ_self _

/-- The text without its control sequences. -/
def unpainted (text : String) : String :=
  String.ofList (withoutSequences text.toList)

@[simp] theorem withoutSequences_nil : withoutSequences [] = [] := by
  rw [withoutSequences]

/-- A control sequence is taken out. -/
theorem withoutSequences_text_append (e : ControlSequence) (rest : List Char) :
    withoutSequences (e.text ++ rest) = withoutSequences rest := by
  have hbehind : behindSequence? (e.text ++ rest) = some rest :=
    behindSequence?_eq_some_iff.mpr ⟨e, rfl⟩
  have hopens : e.text ++ rest = '\x1b' :: ('[' :: (e.codes ++ ['m']) ++ rest) := rfl
  rw [hopens] at hbehind ⊢
  rw [withoutSequences]
  split
  · rename_i rest' hfound
    rw [Option.some.inj (hbehind.symm.trans hfound)]
  · rename_i hfound
    rw [hfound] at hbehind
    cases hbehind

/-- A character stays if no control sequence opens with it. -/
theorem withoutSequences_cons {c : Char} {s : List Char} (h : behindSequence? (c :: s) = none) :
    withoutSequences (c :: s) = c :: withoutSequences s := by
  rw [withoutSequences]
  split
  · rename_i hfound
    rw [h] at hfound
    cases hfound
  · rfl

/-- A control sequence opens with the escape character. -/
theorem behindSequence?_eq_none {c : Char} (h : c ≠ '\x1b') (s : List Char) :
    behindSequence? (c :: s) = none := by
  rw [Option.eq_none_iff_forall_ne_some]
  intro rest hfound
  obtain ⟨e, hsame⟩ := behindSequence?_eq_some_iff.mp hfound
  exact h (List.cons.inj hsame).1

/-- A text without an escape character stays, whatever stands behind it. -/
theorem withoutSequences_append_of_notMem {s : List Char} (h : '\x1b' ∉ s) (rest : List Char) :
    withoutSequences (s ++ rest) = s ++ withoutSequences rest := by
  induction s with
  | nil => rfl
  | cons c s ih =>
      rw [List.mem_cons, not_or] at h
      rw [List.cons_append, withoutSequences_cons (behindSequence?_eq_none (Ne.symm h.1) _), ih h.2]
      rfl

/-! ### Painted text -/

/-- The control sequence that switches a style on. -/
def Style.sequence (style : Style) : ControlSequence where
  codes := style.codes.toList
  inside := List.all_eq_true.mp (by cases style <;> decide)

/-- The control sequence that switches every style off. -/
def closingSequence : ControlSequence where
  codes := ['0']
  inside := List.forall_mem_singleton.mpr (by decide)

/-- Nothing is repeated in a text that does not close a style. -/
theorem reopen_of_notMem (mark : List Char) {s : List Char} (h : '\x1b' ∉ s) : reopen mark s = s := by
  fun_induction reopen mark s with
  | case1 s ih => exact absurd List.mem_cons_self h
  | case2 c s hother ih => rw [ih fun hmember => h (List.mem_cons_of_mem c hmember)]
  | case3 => rfl

/-- In front of any text, `painted` leaves `plain` when the control sequences are taken out, and there
is no escape character in `plain`. -/
structure ReadsAs (painted plain : String) : Prop where
  removal : ∀ rest, withoutSequences (painted.toList ++ rest) = plain.toList ++ withoutSequences rest
  clean : '\x1b' ∉ plain.toList

namespace ReadsAs

variable {painted painted' plain plain' text : String}

/-- A text without an escape character reads as itself. -/
theorem of_notMem (h : '\x1b' ∉ text.toList) : ReadsAs text text :=
  ⟨withoutSequences_append_of_notMem h, h⟩

theorem empty : ReadsAs "" "" :=
  .of_notMem (by decide)

theorem append (h : ReadsAs painted plain) (h' : ReadsAs painted' plain') :
    ReadsAs (painted ++ painted') (plain ++ plain') where
  removal rest := by
    simp only [String.toList_append, List.append_assoc]
    rw [h.removal, h'.removal]
  clean := by
    rw [String.toList_append, List.mem_append, not_or]
    exact ⟨h.clean, h'.clean⟩

/-- A painted text reads as the text. -/
theorem paintIf (style : Style) (h : '\x1b' ∉ text.toList) :
    ReadsAs (style.paintIf true text) (style.paintIf false text) where
  removal rest := by
    have hshape : (style.paintIf true text).toList =
        style.sequence.text ++ (text.toList ++ closingSequence.text) := by
      rw [Style.paintIf, if_pos rfl, Style.paint, String.toList_ofList, reopen_of_notMem _ h,
        List.append_assoc]
      rfl
    calc withoutSequences ((style.paintIf true text).toList ++ rest)
      _ = withoutSequences (style.sequence.text ++ (text.toList ++ (closingSequence.text ++ rest))) := by
          rw [hshape, List.append_assoc, List.append_assoc]
      _ = text.toList ++ withoutSequences rest := by
          rw [withoutSequences_text_append, withoutSequences_append_of_notMem h,
            withoutSequences_text_append]
  clean := h

/-- A whole text without its control sequences. -/
theorem unpainted_eq (h : ReadsAs painted plain) : unpainted painted = plain := by
  have hwhole := h.removal []
  rw [List.append_nil, withoutSequences_nil, List.append_nil] at hwhole
  rw [unpainted, hwhole, String.ofList_toList]

end ReadsAs

end Text

/-! ### Diagnostics -/

namespace Diagnostic

/-- The texts that a diagnostic is made with: its code, its message, and the path and the source line of
its location. -/
def texts (d : Diagnostic) : List String :=
  d.code :: d.message ::
    match d.location with
    | some l => l.path :: l.lineText.toList
    | none => []

theorem readsAs_spaces (n : Nat) : ReadsAs (spaces n) (spaces n) := by
  refine .of_notMem fun hmember => ?_
  rw [spaces, String.toList_ofList] at hmember
  exact absurd (List.eq_of_mem_replicate hmember) (by decide)

theorem readsAs_number (n : Nat) : ReadsAs (toString n) (toString n) :=
  .of_notMem (notMem_toList_repr n (by decide))

theorem readsAs_label (severity : Severity) :
    ReadsAs (severity.style.paintIf true severity.label)
      (severity.style.paintIf false severity.label) :=
  .paintIf _ (by cases severity <;> decide)

theorem readsAs_headline {d : Diagnostic} (hcode : '\x1b' ∉ d.code.toList)
    (hmessage : '\x1b' ∉ d.message.toList) : ReadsAs (d.headline true) (d.headline false) := by
  have hleft : ReadsAs "[" "[" := .of_notMem (by decide)
  have hright : ReadsAs "]: " "]: " := .of_notMem (by decide)
  have hcoded := (((readsAs_label d.severity).append hleft).append (.of_notMem hcode)).append hright
  exact hcoded.append (.paintIf .bold hmessage)

theorem readsAs_display {l : Location} (hpath : '\x1b' ∉ l.path.toList) :
    ReadsAs l.display l.display := by
  have hcolon : ReadsAs ":" ":" := .of_notMem (by decide)
  have hline := ((ReadsAs.of_notMem hpath).append hcolon).append (readsAs_number l.line)
  exact (hline.append hcolon).append (readsAs_number l.column)

theorem readsAs_excerpt (severity : Severity) (l : Location) {text : String}
    (hline : '\x1b' ∉ text.toList) :
    ReadsAs (excerpt severity true l text) (excerpt severity false l text) := by
  have hnext : ReadsAs "\n" "\n" := .of_notMem (by decide)
  have hblank : ReadsAs " " " " := .of_notMem (by decide)
  have hnumber := readsAs_number l.line
  have hgutter := readsAs_spaces (toString l.line).length
  have hbar := ReadsAs.paintIf .boldCyan (by decide : '\x1b' ∉ "|".toList)
  have hcaret := ReadsAs.paintIf severity.style (by decide : '\x1b' ∉ "^".toList)
  -- the three lines, one after another
  have hfirst := ((hnext.append hgutter).append hblank).append hbar
  have hsecond := (((((hfirst.append hnext).append hnumber).append hblank).append hbar).append
    hblank).append (.of_notMem hline)
  have hthird := ((((hsecond.append hnext).append hgutter).append hblank).append hbar).append hblank
  exact (hthird.append (readsAs_spaces (l.column - 1))).append hcaret

theorem readsAs_place (severity : Severity) {l : Location} (hpath : '\x1b' ∉ l.path.toList)
    (hline : ∀ text ∈ l.lineText, '\x1b' ∉ text.toList) :
    ReadsAs (place severity true l) (place severity false l) := by
  have hnext : ReadsAs "\n" "\n" := .of_notMem (by decide)
  have hblank : ReadsAs " " " " := .of_notMem (by decide)
  have harrow := ReadsAs.paintIf .boldCyan (by decide : '\x1b' ∉ "-->".toList)
  have hgutter := readsAs_spaces (toString l.line).length
  have hfront := ((((hnext.append hgutter).append hblank).append harrow).append hblank).append
    (readsAs_display hpath)
  unfold place
  cases hshown : l.lineText with
  | none => exact hfront.append .empty
  | some text => exact hfront.append (readsAs_excerpt severity l (hline text hshown))

/-- **A coloured diagnostic reads as the plain one.** -/
theorem readsAs_render {d : Diagnostic} (hclean : ∀ s ∈ d.texts, '\x1b' ∉ s.toList) :
    ReadsAs (d.render true) (d.render false) := by
  have hmessage : '\x1b' ∉ d.message.toList := hclean d.message (by simp [texts])
  have hheadline := readsAs_headline (hclean d.code List.mem_cons_self) hmessage
  unfold render
  cases hplace : d.location with
  | none => exact hheadline.append .empty
  | some l =>
      have hpath : '\x1b' ∉ l.path.toList := hclean l.path (by simp [texts, hplace])
      refine hheadline.append (readsAs_place d.severity hpath ?_)
      intro text hshown
      exact hclean text (by simp [texts, hplace, Option.mem_def.mp hshown])

end Diagnostic

/-- **Colour adds nothing but control sequences.** If there is no escape character in the texts that a
diagnostic is made with, the coloured diagnostic without its control sequences is the plain one, which
has no escape character in it. -/
theorem unpainted_render (d : Diagnostic) (hclean : ∀ s ∈ d.texts, '\x1b' ∉ s.toList) :
    unpainted (d.render true) = d.render false ∧ '\x1b' ∉ (d.render false).toList := by
  have hreads := Diagnostic.readsAs_render hclean
  exact ⟨hreads.unpainted_eq, hreads.clean⟩

/-- A report in which every text looks like a part of a control sequence. -/
def lookalikeReport : Diagnostic :=
  ⟨.warning, "0m", "[1;33m", some ⟨"[m;", 12, 3, some "1;31m[0m|[m"⟩⟩

theorem lookalikeReport_unpainted :
    (∀ s ∈ lookalikeReport.texts, '\x1b' ∉ s.toList) ∧
      unpainted (lookalikeReport.render true) = lookalikeReport.render false ∧
      '\x1b' ∉ (lookalikeReport.render false).toList := by
  have hclean : ∀ s ∈ lookalikeReport.texts, '\x1b' ∉ s.toList := by decide
  exact ⟨hclean, unpainted_render lookalikeReport hclean⟩

end Wasmline
