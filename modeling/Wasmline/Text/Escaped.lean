/-!
# Escaped controls

A terminal obeys some characters instead of showing them, so a text that comes from outside could
change what is on the screen. Such a text is written with these characters by their code points:
bell, backspace, form feed, escape and delete as `\x` and two hexadecimal digits, the controls from
U+0080 to U+009F as `\u` and their digits in braces. Line breaks, tabs and all other characters stay
as they are. `not_mem_escapeControls` says that none of the escaped characters is left.
-/

namespace Wasmline.Text

/-- A control of the ASCII range that a terminal obeys. -/
def isLowControl (c : Char) : Bool :=
  [0x07, 0x08, 0x0c, 0x1b, 0x7f].contains c.toNat

/-- A control of the range behind ASCII. -/
def isHighControl (c : Char) : Bool :=
  0x80 ≤ c.toNat && c.toNat ≤ 0x9f

/-- The two hexadecimal digits of a number below 256. -/
def hexPair (n : Nat) : List Char :=
  [Nat.digitChar (n / 16), Nat.digitChar (n % 16)]

/-- A character as it is written where controls must not stand for themselves. -/
def escapeControl (c : Char) : List Char :=
  if isLowControl c then '\\' :: 'x' :: hexPair c.toNat
  else if isHighControl c then ['\\', 'u', '\x7b'] ++ hexPair c.toNat ++ ['\x7d']
  else [c]

/-- A text with its controls written by their code points. -/
def escapeControls (s : List Char) : List Char :=
  s.flatMap escapeControl

@[simp] theorem escapeControls_nil : escapeControls [] = [] := rfl

@[simp] theorem escapeControls_append (s t : List Char) :
    escapeControls (s ++ t) = escapeControls s ++ escapeControls t := by
  simp [escapeControls]

/-- A digit is no control. -/
theorem digitChar_not_control {n : Nat} (h : n < 16) :
    isLowControl (Nat.digitChar n) = false ∧ isHighControl (Nat.digitChar n) = false := by
  have hall : ∀ m : Fin 16, isLowControl (Nat.digitChar m) = false ∧
      isHighControl (Nat.digitChar m) = false := by decide
  exact hall ⟨n, h⟩

/-- The digits of a character below U+0100 are no controls. -/
theorem hexPair_not_control {n : Nat} (h : n < 256) {c : Char} (hc : c ∈ hexPair n) :
    isLowControl c = false ∧ isHighControl c = false := by
  simp only [hexPair, List.mem_cons, List.not_mem_nil, or_false] at hc
  rcases hc with rfl | rfl
  · exact digitChar_not_control (by omega)
  · exact digitChar_not_control (Nat.mod_lt n (by decide))

/-- What is written for one character holds no control. -/
theorem not_mem_escapeControl {c d : Char} (h : d ∈ escapeControl c) :
    isLowControl d = false ∧ isHighControl d = false := by
  unfold escapeControl at h
  split at h
  · rename_i hlow
    have hbound : c.toNat < 256 := by
      simp only [isLowControl, List.contains_iff_mem, List.mem_cons, List.not_mem_nil,
        or_false] at hlow
      omega
    simp only [List.mem_cons] at h
    rcases h with rfl | rfl | h
    · decide
    · decide
    · exact hexPair_not_control hbound h
  · split at h
    · rename_i hhigh
      have hbound : c.toNat < 256 := by
        simp only [isHighControl, Bool.and_eq_true, decide_eq_true_eq] at hhigh
        omega
      simp only [List.mem_append, List.mem_singleton] at h
      rcases h with (h | h) | rfl
      · simp only [List.mem_cons, List.not_mem_nil, or_false] at h
        rcases h with rfl | rfl | rfl <;> decide
      · exact hexPair_not_control hbound h
      · decide
    · rename_i hlow hhigh
      rw [List.mem_singleton] at h
      subst h
      exact ⟨by simpa using hlow, by simpa using hhigh⟩

/-- No control is left in an escaped text. -/
theorem not_mem_escapeControls {s : List Char} {d : Char} (h : d ∈ escapeControls s) :
    isLowControl d = false ∧ isHighControl d = false := by
  obtain ⟨c, _, hc⟩ := List.mem_flatMap.1 h
  exact not_mem_escapeControl hc

end Wasmline.Text
