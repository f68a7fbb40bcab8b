/-!
# Blank characters

A character is *blank* when it has the Unicode property `White_Space`: the ASCII controls from tab
to carriage return, the space, the next-line control, the no-break space, and the separators of the
general punctuation and CJK blocks. Twenty-five characters in all, given as ten ranges.

Texts are lists of characters here. Trimming removes blanks from one end or from both and nothing
else; `takeWhile_append_trimStart` and `exists_trimEnd_append` say that what is removed is a run of blanks.
-/

namespace Wasmline.Text

/-- A table of inclusive ranges of code points covers `n`. -/
def covers (ranges : List (Nat × Nat)) (n : Nat) : Bool :=
  ranges.any fun r => r.1 ≤ n && n ≤ r.2

/-- The code points with the property `White_Space`. -/
def blankRanges : List (Nat × Nat) :=
  [(0x09, 0x0d), (0x20, 0x20), (0x85, 0x85), (0xa0, 0xa0), (0x1680, 0x1680), (0x2000, 0x200a),
   (0x2028, 0x2029), (0x202f, 0x202f), (0x205f, 0x205f), (0x3000, 0x3000)]

/-- White space of any script. -/
def isBlank (c : Char) : Bool :=
  covers blankRanges c.toNat

/-- The text without the blanks it starts with. -/
def trimStart (s : List Char) : List Char :=
  s.dropWhile isBlank

/-- The text without the blanks it ends with. -/
def trimEnd (s : List Char) : List Char :=
  (s.reverse.dropWhile isBlank).reverse

/-- The text without the blanks at either end. -/
def trim (s : List Char) : List Char :=
  trimEnd (trimStart s)

@[simp] theorem trimStart_nil : trimStart [] = [] := rfl

@[simp] theorem trimEnd_nil : trimEnd [] = [] := rfl

/-- What `trimStart` removes is the longest run of blanks in front. -/
theorem takeWhile_append_trimStart (s : List Char) : s.takeWhile isBlank ++ trimStart s = s :=
  List.takeWhile_append_dropWhile

/-- What `trimEnd` removes is a run of blanks. -/
theorem exists_trimEnd_append (s : List Char) :
    ∃ w, s = trimEnd s ++ w ∧ ∀ c ∈ w, isBlank c = true := by
  refine ⟨(s.reverse.takeWhile isBlank).reverse, ?_, ?_⟩
  · rw [trimEnd, ← List.reverse_append, List.takeWhile_append_dropWhile, List.reverse_reverse]
  · intro c hc
    have := List.all_takeWhile (p := isBlank) (l := s.reverse)
    exact List.all_eq_true.1 this c (List.mem_reverse.1 hc)

end Wasmline.Text
