/-!
# Lines of a text

A text is cut after every line feed. A line loses its line feed and one carriage return right before
it; a last line that no line feed ends is kept as it stands, carriage return included, unless it is
empty. So a text that ends in a line feed has no empty last line.
-/

namespace Wasmline.Text

/-- Without the carriage return in front, if there is one. Used on a line held back to front. -/
def dropReturn : List Char → List Char
  | '\r' :: s => s
  | s => s

/-- The lines of `s` when the characters of `held`, back to front, already belong to the first. -/
def linesFrom (held : List Char) : List Char → List (List Char)
  | [] => if held.isEmpty then [] else [held.reverse]
  | c :: s =>
    if c = '\n' then (dropReturn held).reverse :: linesFrom [] s else linesFrom (c :: held) s

/-- The lines of a text, first to last, without their line ends. -/
def lines (s : List Char) : List (List Char) :=
  linesFrom [] s

@[simp] theorem lines_nil : lines [] = [] := rfl

/-- No line holds a line feed. -/
theorem not_mem_linesFrom (held s : List Char) (h : '\n' ∉ held) :
    ∀ l ∈ linesFrom held s, '\n' ∉ l := by
  induction s generalizing held with
  | nil =>
    intro l hl
    simp only [linesFrom] at hl
    split at hl
    · simp at hl
    · simp only [List.mem_singleton] at hl
      simpa [hl] using h
  | cons c s ih =>
    intro l hl
    simp only [linesFrom] at hl
    split at hl
    · rcases List.mem_cons.1 hl with rfl | hl
      · rw [List.mem_reverse]
        intro hm
        apply h
        unfold dropReturn at hm
        split at hm
        · exact List.mem_cons_of_mem _ hm
        · exact hm
      · exact ih [] (by simp) l hl
    · rename_i hc
      exact ih (c :: held) (by simp [h, Ne.symm hc]) l hl

/-- No line holds a line feed. -/
theorem not_mem_lines {s l : List Char} (h : l ∈ lines s) : '\n' ∉ l :=
  not_mem_linesFrom [] s (by simp) l h

end Wasmline.Text
