import Wasmline.Proofs.Source.Grammar
import Wasmline.Source.Declaration
import Mathlib.Data.List.Basic
import Mathlib.Data.List.TakeWhile

/-!
# Lines are read as the grammar says

One equivalence for each reader of a line says which texts it takes and what it makes of them. They are
put together along the definitions of the readers, and come down to two statements about a whole line:
`import?_eq_some_iff` and `function?_eq_some_iff`. In both directions the reason is the same: a reader
takes a class of characters for as long as it goes, and the grammar never has a character of the class
behind it (`span_eq_iff`).

A line that has the form of a function is not taken for an import, since only the latter has quotes.
So the order in which the two are tried does not matter, and the readings of a line are given by the
grammar alone.
-/

namespace Wasmline

open Text Line

/-! ### Runs of characters -/

/-- A run of characters of a class, taken for as long as it goes. -/
theorem span_eq_iff {p : Char → Bool} {s front rest : List Char} :
    (s.takeWhile p = front ∧ s.dropWhile p = rest) ↔
      s = front ++ rest ∧ (∀ c ∈ front, p c = true) ∧ ∀ c ∈ rest.head?, p c = false := by
  constructor
  · rintro ⟨rfl, rfl⟩
    refine ⟨List.takeWhile_append_dropWhile.symm, fun c => List.mem_takeWhile_imp, ?_⟩
    intro c hhead
    have := List.head?_dropWhile_not p s
    rw [Option.mem_def.mp hhead] at this
    simpa using this
  · rintro ⟨rfl, hinside, hboundary⟩
    have hstop : rest.takeWhile p = [] ∧ rest.dropWhile p = rest := by
      cases rest with
      | nil => exact ⟨rfl, rfl⟩
      | cons c rest => simp [hboundary c rfl]
    rw [List.takeWhile_append_of_pos hinside, List.dropWhile_append_of_pos hinside, hstop.1, hstop.2,
      List.append_nil]
    exact ⟨rfl, rfl⟩

/-- Texts that are cut where a run of a class ends are the same in front of the cut and behind. -/
theorem span_inj {p : Char → Bool} {s t rest rest' : List Char} (hs : ∀ c ∈ s, p c = true)
    (ht : ∀ c ∈ t, p c = true) (hends : ∀ c ∈ rest.head?, p c = false)
    (hends' : ∀ c ∈ rest'.head?, p c = false) (hsame : s ++ rest = t ++ rest') :
    s = t ∧ rest = rest' := by
  obtain ⟨hfront, hbehind⟩ := span_eq_iff.mpr ⟨rfl, hs, hends⟩
  obtain ⟨hfront', hbehind'⟩ := span_eq_iff.mpr ⟨rfl, ht, hends'⟩
  rw [hsame] at hfront hbehind
  exact ⟨hfront.symm.trans hfront', hbehind.symm.trans hbehind'⟩

/-- A text that is taken up to the first sign of a kind. -/
theorem span_of_notMem {sign : Char} {s : List Char} (h : sign ∉ s) (rest : List Char) :
    (s ++ sign :: rest).takeWhile (fun c => c != sign) = s ∧
      (s ++ sign :: rest).dropWhile (fun c => c != sign) = sign :: rest := by
  refine span_eq_iff.mpr ⟨rfl, ?_, by simp⟩
  intro c hmember
  rw [bne_iff_ne]
  rintro rfl
  exact h hmember

/-- A natural number is written in digits. -/
theorem notMem_toList_repr (n : Nat) {sign : Char} (hnotDigit : sign.isDigit = false) :
    sign ∉ n.repr.toList := by
  intro hinside
  rw [Nat.toList_repr] at hinside
  have hdigit := Nat.isDigit_of_mem_toDigits (by decide) (by decide) hinside
  rw [hdigit] at hnotDigit
  cases hnotDigit

theorem trimStart_eq_iff {s rest : List Char} :
    trimStart s = rest ↔ Flush rest ∧ ∃ w : Blanks, s = w.text ++ rest := by
  constructor
  · intro h
    obtain ⟨hsame, hblank, hflush⟩ := span_eq_iff.mp ⟨rfl, h⟩
    exact ⟨hflush, ⟨_, hblank⟩, hsame⟩
  · rintro ⟨hflush, w, hsame⟩
    exact (span_eq_iff.mpr ⟨hsame, w.blank, hflush⟩).2

/-- Two words that start differently are not taken for each other. -/
theorem after?_eq_none_of_head? {word s : List Char} {c d : Char} (h : word.head? = some c)
    (h' : s.head? = some d) (hne : c ≠ d) : after? word s = none := by
  obtain ⟨word, rfl⟩ := List.head?_eq_some_iff.mp h
  obtain ⟨s, rfl⟩ := List.head?_eq_some_iff.mp h'
  exact if_neg hne

/-- A word with blanks in front of it or none. -/
theorem after?_trimStart_eq_some_iff {word s rest : List Char}
    (h : word.head?.any (fun c => !isBlank c) = true) :
    after? word (trimStart s) = some rest ↔ ∃ w : Blanks, s = w.text ++ (word ++ rest) := by
  rw [after?_eq_some_iff, trimStart_eq_iff]
  refine ⟨fun h => h.2, fun hsame => ⟨?_, hsame⟩⟩
  cases word with
  | nil => exact nomatch h
  | cons c word => simpa using h

theorem blanks?_eq_some_iff {s rest : List Char} :
    blanks? s = some rest ↔ Flush rest ∧ ∃ gap : Gap, s = gap.text ++ rest := by
  constructor
  · intro h
    cases s with
    | nil => exact nomatch h
    | cons c s =>
      rw [blanks?] at h
      split at h
      · rename_i hblank
        obtain ⟨hflush, w, rfl⟩ := trimStart_eq_iff.mp (Option.some.inj h)
        exact ⟨hflush, ⟨⟨c :: w.text, by simpa [hblank] using w.blank⟩, by simp⟩, rfl⟩
      · exact nomatch h
  · rintro ⟨hflush, gap, rfl⟩
    obtain ⟨c, w, hsame⟩ := List.exists_cons_of_ne_nil gap.ne_nil
    have hblank := gap.blank
    rw [hsame, List.forall_mem_cons] at hblank
    rw [hsame, List.cons_append, blanks?, if_pos hblank.1]
    exact congrArg some (trimStart_eq_iff.mpr ⟨hflush, ⟨w, hblank.2⟩, rfl⟩)

theorem name?_eq_some_iff {s name rest : List Char} :
    name? s = some (name, rest) ↔
      (∀ c ∈ rest.head?, inName c = false) ∧ ∃ n : Identifier, n.text = name ∧ s = n.text ++ rest := by
  constructor
  · intro h
    cases s with
    | nil => exact nomatch h
    | cons c s =>
      rw [name?] at h
      split at h
      · rename_i hstarts
        obtain ⟨rfl, htaken⟩ := Prod.mk.inj (Option.some.inj h)
        obtain ⟨hsame, hinside, hboundary⟩ := span_eq_iff.mp ⟨rfl, htaken⟩
        exact ⟨hboundary, ⟨c, _, hstarts, hinside⟩, rfl, congrArg (c :: ·) hsame⟩
      · exact nomatch h
  · rintro ⟨hboundary, n, rfl, rfl⟩
    obtain ⟨htaken, hleft⟩ := span_eq_iff.mpr ⟨rfl, n.goesOn, hboundary⟩
    rw [Identifier.text, List.cons_append, name?, if_pos n.starts, htaken, hleft]

theorem parens?_eq_some_iff {s rest : List Char} :
    parens? s = some rest ↔
      ∃ w w' : Blanks, s = w.text ++ '(' :: (w'.text ++ ')' :: rest) := by
  unfold parens?
  simp only [Option.bind_eq_bind, Option.bind_eq_some_iff]
  constructor
  · rintro ⟨s', hopened, hclosed⟩
    obtain ⟨w, rfl⟩ := (after?_trimStart_eq_some_iff (by decide)).mp hopened
    obtain ⟨w', rfl⟩ := (after?_trimStart_eq_some_iff (by decide)).mp hclosed
    exact ⟨w, w', rfl⟩
  · rintro ⟨w, w', rfl⟩
    exact ⟨_, (after?_trimStart_eq_some_iff (by decide)).mpr ⟨w, rfl⟩,
      (after?_trimStart_eq_some_iff (by decide)).mpr ⟨w', rfl⟩⟩

/-- A name ends where a parenthesis follows it, with blanks in between or none. -/
theorem inName_head?_parens (w : Blanks) (rest : List Char) :
    ∀ c ∈ (w.text ++ '(' :: rest).head?, inName c = false := by
  intro c hhead
  cases hsame : w.text with
  | nil =>
      rw [hsame] at hhead
      obtain rfl := Option.some.inj hhead
      decide
  | cons d w' =>
      rw [hsame] at hhead
      obtain rfl := Option.some.inj hhead
      exact inName_of_isBlank (w.blank _ (by simp [hsame]))

/-! ### Bodies -/

theorem decimal_eq_ofDigits (digits : List Char) :
    decimal digits = Nat.ofDigits 10 (digits.reverse.map fun c => c.toNat - '0'.toNat) := by
  rw [Nat.ofDigits_eq_foldr, List.foldr_map, List.foldr_reverse, decimal]
  simp only [Nat.cast_id, Nat.add_comm]

theorem signed_eq_value (literal : Literal) :
    signed literal.negative literal.digits = literal.value := by
  simp only [signed, Literal.value, decimal_eq_ofDigits]

theorem digits?_of_minus (s : List Char) :
    digits? ('-' :: s) = if !s.isEmpty && s.all isDigit then some (true, s) else none := rfl

theorem digits?_of_head?_ne {s : List Char} (h : s.head? ≠ some '-') :
    digits? s = if !s.isEmpty && s.all isDigit then some (false, s) else none := by
  unfold digits?
  split
  · rename_i hsplit
    split at hsplit
    · exact absurd rfl h
    · obtain ⟨rfl, rfl⟩ := Prod.mk.inj hsplit
      rfl

/-- A minus sign is no digit, so it is always the sign of what follows. -/
theorem digits?_eq_some_iff {s digits : List Char} {negative : Bool} :
    digits? s = some (negative, digits) ↔
      s = (if negative then '-' :: digits else digits) ∧ digits ≠ [] ∧ digits.all isDigit = true := by
  have hsign : isDigit '-' = false := by decide
  by_cases hminus : s.head? = some '-'
  · obtain ⟨t, rfl⟩ := List.head?_eq_some_iff.mp hminus
    rw [digits?_of_minus]
    cases negative <;> grind
  · rw [digits?_of_head?_ne hminus]
    cases negative <;> grind

theorem Literal.digits?_text (literal : Literal) :
    digits? literal.text = some (literal.negative, literal.digits) := by
  refine digits?_eq_some_iff.mpr ⟨rfl, literal.ne_nil, List.all_eq_true.mpr ?_⟩
  intro c hmember
  simp [isDigit, literal.decimal c hmember]

theorem call?_eq_some_iff {s name : List Char} :
    call? s = some name ↔ ∃ (n : Identifier) (w w' : Blanks),
      n.text = name ∧ s = n.text ++ (w.text ++ '(' :: (w'.text ++ [')'])) := by
  unfold call?
  simp only [Option.bind_eq_bind, Option.bind_eq_some_iff, Prod.exists]
  constructor
  · rintro ⟨name', s₁, hnamed, s₂, hclosed, hlast⟩
    obtain ⟨-, n, rfl, rfl⟩ := name?_eq_some_iff.mp hnamed
    obtain ⟨w, w', rfl⟩ := parens?_eq_some_iff.mp hclosed
    rw [Option.ite_none_right_eq_some, List.isEmpty_iff] at hlast
    obtain ⟨rfl, hsame⟩ := hlast
    exact ⟨n, w, w', Option.some.inj hsame, rfl⟩
  · rintro ⟨n, w, w', rfl, rfl⟩
    exact ⟨_, _, name?_eq_some_iff.mpr ⟨inName_head?_parens w _, n, rfl, rfl⟩, [],
      parens?_eq_some_iff.mpr ⟨w, w', rfl⟩, rfl⟩

/-- A call is not taken for an integer. -/
theorem digits?_eq_none_of_mem {s : List Char} (h : ')' ∈ s) : digits? s = none := by
  by_contra hread
  obtain ⟨⟨negative, digits⟩, hread⟩ := Option.ne_none_iff_exists'.mp hread
  obtain ⟨rfl, -, hall⟩ := digits?_eq_some_iff.mp hread
  have hmember : ')' ∈ digits := by
    split at h
    · exact (List.mem_cons.mp h).resolve_left (by decide)
    · exact h
  exact nomatch (List.all_eq_true.mp hall _ hmember)

/-- The number fits exactly if there is a 32-bit integer that is equal to it. -/
theorem readBody_of_digits {s digits : List Char} {negative : Bool} {expr : Expr}
    (hread : digits? s = some (negative, digits)) :
    readBody s = .ok expr ↔ (∀ c ∈ digits, c.isDigit = true) ∧
      ∃ value : Int32, value.toInt = signed negative digits ∧ .int value = expr := by
  simp only [readBody, hread]
  rw [← List.all_eq_true]
  generalize signed negative digits = n
  constructor
  · intro h
    split at h
    · rename_i hfits
      simp only [Bool.and_eq_true, decide_eq_true_eq] at hfits
      obtain ⟨⟨hascii, hlow⟩, hhigh⟩ := hfits
      exact ⟨hascii, .ofInt n, Int32.toInt_ofInt_of_le hlow hhigh, Except.ok.inj h⟩
    · exact nomatch h
  · rintro ⟨hascii, value, rfl, rfl⟩
    have hlow := value.le_toInt
    have hhigh := value.toInt_lt
    rw [if_pos (by simpa [hascii] using ⟨hlow, hhigh⟩), Int32.ofInt_toInt]

/-- The texts that can be read as a body are those of the grammar. -/
theorem readBody_eq_ok_iff {s : List Char} {expr : Expr} :
    readBody s = .ok expr ↔ ∃ body : BodySyntax, body.text = s ∧ body.expr = expr := by
  constructor
  · intro h
    cases hread : digits? s with
    | some parts =>
        obtain ⟨negative, digits⟩ := parts
        obtain ⟨hsame, hne, -⟩ := digits?_eq_some_iff.mp hread
        obtain ⟨hascii, value, hnumber, rfl⟩ := (readBody_of_digits hread).mp h
        let literal : Literal := ⟨negative, digits, hne, hascii⟩
        exact ⟨.int literal value (hnumber.trans (signed_eq_value literal)), hsame.symm, rfl⟩
    | none =>
        simp only [readBody, hread] at h
        split at h
        · rename_i name hcalled
          obtain ⟨n, w, w', rfl, rfl⟩ := call?_eq_some_iff.mp hcalled
          exact ⟨.call n w w', rfl, Except.ok.inj h⟩
        · exact nomatch h
  · rintro ⟨body, rfl, rfl⟩
    cases body with
    | int literal value hdenotes =>
        exact (readBody_of_digits literal.digits?_text).mpr
          ⟨literal.decimal, value, hdenotes.trans (signed_eq_value literal).symm, rfl⟩
    | call n w w' =>
        have hunread : digits? (BodySyntax.text (.call n w w')) = none :=
          digits?_eq_none_of_mem (by simp [BodySyntax.text])
        have hread : call? (BodySyntax.text (.call n w w')) = some n.text :=
          call?_eq_some_iff.mpr ⟨n, w, w', rfl, rfl⟩
        simp only [readBody, hunread, hread, BodySyntax.expr]

/-! ### Functions -/

theorem header?_eq_some_iff {s name rest : List Char} :
    header? s = some (name, rest) ↔
      Flush rest ∧ ∃ h : Header, h.name.text = name ∧ s = h.text ++ rest := by
  have htype : "i32".toList.head?.any (fun c => !isBlank c) = true := by decide
  have hreturn : "return".toList.head?.any (fun c => !isBlank c) = true := by decide
  unfold header? Header.text
  -- Spelled out, the words would be taken apart as lists.
  generalize "function".toList = w₁, "i32".toList = w₂, "return".toList = w₃ at *
  simp only [Option.bind_eq_bind, Option.bind_eq_some_iff, Prod.exists]
  constructor
  · rintro ⟨s₁, h₁, s₂, h₂, name', s₃, h₃, s₄, h₄, s₅, h₅, s₆, h₆, s₇, h₇, s₈, h₈, s₉, h₉, hlast⟩
    obtain rfl := after?_eq_some_iff.mp h₁
    obtain ⟨-, beforeName, rfl⟩ := blanks?_eq_some_iff.mp h₂
    obtain ⟨-, n, rfl, rfl⟩ := name?_eq_some_iff.mp h₃
    obtain ⟨beforeOpen, beforeClose, rfl⟩ := parens?_eq_some_iff.mp h₄
    obtain ⟨beforeColon, rfl⟩ := (after?_trimStart_eq_some_iff (by decide)).mp h₅
    obtain ⟨beforeType, rfl⟩ := (after?_trimStart_eq_some_iff htype).mp h₆
    obtain ⟨beforeBrace, rfl⟩ := (after?_trimStart_eq_some_iff (by decide)).mp h₇
    obtain ⟨beforeReturn, rfl⟩ := (after?_trimStart_eq_some_iff hreturn).mp h₈
    obtain ⟨hflush, beforeBody, rfl⟩ := blanks?_eq_some_iff.mp h₉
    obtain ⟨rfl, rfl⟩ := Prod.mk.inj (Option.some.inj hlast)
    refine ⟨hflush, ⟨beforeName, n, beforeOpen, beforeClose, beforeColon, beforeType, beforeBrace,
      beforeReturn, beforeBody⟩, rfl, ?_⟩
    simp only [List.append_assoc, List.cons_append, List.nil_append]
  · rintro ⟨hflush, h, rfl, rfl⟩
    simp only [List.append_assoc, List.cons_append]
    refine ⟨_, after?_eq_some_iff.mpr rfl, _, blanks?_eq_some_iff.mpr ⟨?_, h.beforeName, rfl⟩, _, _,
      name?_eq_some_iff.mpr ⟨inName_head?_parens h.beforeOpen _, h.name, rfl, rfl⟩, _,
      parens?_eq_some_iff.mpr ⟨h.beforeOpen, h.beforeClose, rfl⟩, _,
      (after?_trimStart_eq_some_iff (by decide)).mpr ⟨h.beforeColon, rfl⟩, _,
      (after?_trimStart_eq_some_iff htype).mpr ⟨h.beforeType, rfl⟩, _,
      (after?_trimStart_eq_some_iff (by decide)).mpr ⟨h.beforeBrace, rfl⟩, _,
      (after?_trimStart_eq_some_iff hreturn).mpr ⟨h.beforeReturn, rfl⟩, _,
      blanks?_eq_some_iff.mpr ⟨hflush, h.beforeBody, rfl⟩, rfl⟩
    exact flush_cons.mpr (isBlank_of_inName (inName_of_startsName h.name.starts))

theorem Header.head?_text_append (h : Header) (rest : List Char) :
    (h.text ++ rest).head? = some 'f' := by
  have hfirst : "function".toList.head? = some 'f' := by decide
  exact List.mem_head?_append_of_mem_head? (List.mem_head?_append_of_mem_head? hfirst)

theorem exported?_exportText (afterExport : Option Gap) (h : Header) (rest : List Char) :
    exported? (FunctionSyntax.exportText afterExport ++ (h.text ++ rest)) =
      (afterExport.isSome, h.text ++ rest) := by
  have hfirst := h.head?_text_append rest
  unfold exported?
  cases afterExport with
  | some gap =>
      have hflush : Flush (h.text ++ rest) := by
        intro c hhead
        rw [hfirst] at hhead
        obtain rfl := Option.some.inj hhead
        decide
      have hread : (after? "export".toList (FunctionSyntax.exportText (some gap) ++ (h.text ++ rest)) >>=
          blanks?) = some (h.text ++ rest) := by
        rw [Option.bind_eq_bind, Option.bind_eq_some_iff]
        refine ⟨_, after?_eq_some_iff.mpr (List.append_assoc _ _ _), ?_⟩
        exact blanks?_eq_some_iff.mpr ⟨hflush, gap, rfl⟩
      rw [hread]
      rfl
  | none =>
      have hread : after? "export".toList (FunctionSyntax.exportText none ++ (h.text ++ rest)) = none :=
        after?_eq_none_of_head? (c := 'e') (by decide) hfirst (by decide)
      rw [hread]
      rfl

theorem exists_exportText (line : List Char) :
    ∃ afterExport : Option Gap, afterExport.isSome = (exported? line).1 ∧
      line = FunctionSyntax.exportText afterExport ++ (exported? line).2 := by
  unfold exported?
  split
  · rename_i s hread
    obtain ⟨s', hword, hblanks⟩ := Option.bind_eq_some_iff.mp hread
    obtain rfl := after?_eq_some_iff.mp hword
    obtain ⟨-, gap, rfl⟩ := blanks?_eq_some_iff.mp hblanks
    exact ⟨some gap, rfl, (List.append_assoc _ _ _).symm⟩
  · exact ⟨none, rfl, rfl⟩

theorem trimEnd_append_blanks (s : List Char) (w : Blanks) : trimEnd (s ++ w.text) = trimEnd s := by
  have hblank : ∀ c ∈ w.text.reverse, isBlank c = true := fun c hmember =>
    w.blank c (List.mem_reverse.mp hmember)
  rw [trimEnd, List.reverse_append, List.dropWhile_append_of_pos hblank, trimEnd]

theorem trimEnd_concat (s : List Char) {c : Char} (h : isBlank c = false) :
    trimEnd (s ++ [c]) = s ++ [c] := by
  simp [trimEnd, h]

/-- What is taken off behind a body is blanks, a semicolon or none, and blanks. -/
theorem exists_bodyText_append (s : List Char) :
    ∃ (w : Blanks) (semicolon : Bool) (w' : Blanks),
      s = bodyText s ++ (w.text ++ (semicolonText semicolon ++ w'.text)) := by
  obtain ⟨w', hsame, hblank'⟩ := exists_trimEnd_append s
  simp only [bodyText]
  split
  · rename_i t hdropped
    obtain ⟨w, hsame', hblank⟩ := exists_trimEnd_append t
    refine ⟨⟨w, hblank⟩, true, ⟨w', hblank'⟩, ?_⟩
    rw [Path.dropSuffix?_eq_some hdropped, hsame'] at hsame
    simpa [semicolonText] using hsame
  · exact ⟨⟨[], nofun⟩, false, ⟨w', hblank'⟩, hsame⟩

/-- A body that ends in neither a blank nor a semicolon is found again. -/
theorem bodyText_append {body : List Char}
    (hends : ∃ front last, body = front ++ [last] ∧ isBlank last = false ∧ last ≠ ';') (w : Blanks)
    (semicolon : Bool) (w' : Blanks) :
    bodyText (body ++ (w.text ++ (semicolonText semicolon ++ w'.text))) = body := by
  obtain ⟨front, last, hsame, hsharp, hother⟩ := hends
  have hwhole : trimEnd body = body := by rw [hsame, trimEnd_concat front hsharp]
  rw [← List.append_assoc, ← List.append_assoc]
  simp only [bodyText, trimEnd_append_blanks]
  cases semicolon with
  | true =>
      rw [semicolonText, if_pos rfl, trimEnd_concat _ (by decide), Path.dropSuffix?_append]
      simp only [trimEnd_append_blanks, hwhole]
  | false =>
      have hundropped : Path.dropSuffix? [';'] body = none := by
        by_contra hdropped
        obtain ⟨t, hdropped⟩ := Option.ne_none_iff_exists'.mp hdropped
        have hends := hsame.symm.trans (Path.dropSuffix?_eq_some hdropped)
        exact hother (List.concat_inj.mp (by simpa using hends)).2
      simp only [semicolonText, Bool.false_eq_true, if_false, List.append_nil, trimEnd_append_blanks,
        hwhole, hundropped]

/-- The lines that can be read as a function are those of the grammar. -/
theorem function?_eq_some_iff {line : List Char} {declaration : String × Bool × Expr} :
    (∃ f body, Line.function? line = some f ∧ readBody f.body = .ok body ∧
        (String.ofList f.name, f.exported, body) = declaration) ↔
      ∃ f : FunctionSyntax, f.text = line ∧ f.declares = declaration := by
  constructor
  · rintro ⟨f, expr, hread, hbody, rfl⟩
    obtain ⟨afterExport, hexported, hsame⟩ := exists_exportText line
    simp only [Line.function?, Option.bind_eq_bind, Option.bind_eq_some_iff, Prod.exists] at hread
    obtain ⟨name, rest, hheader, inner, hclosed, hparts⟩ := hread
    obtain rfl := Option.some.inj hparts
    obtain ⟨-, h, rfl, hsplit⟩ := header?_eq_some_iff.mp hheader
    obtain ⟨w, semicolon, w', htail⟩ := exists_bodyText_append inner
    obtain ⟨b, htext, rfl⟩ := readBody_eq_ok_iff.mp hbody
    refine ⟨⟨afterExport, h, b, w, semicolon, w'⟩, ?_, ?_⟩
    · rw [hsame, hsplit, Path.dropSuffix?_eq_some hclosed, htail]
      simp only [FunctionSyntax.text, htext, List.append_assoc]
    · rw [FunctionSyntax.declares, hexported]
  · rintro ⟨f, rfl, rfl⟩
    let inner := f.body.text ++ (f.beforeSemicolon.text ++ (semicolonText f.semicolon ++
      f.beforeBrace.text))
    have hwhole : f.text =
        FunctionSyntax.exportText f.afterExport ++ (f.header.text ++ (inner ++ ['\x7d'])) := by
      simp only [FunctionSyntax.text, inner, List.append_assoc]
    have hflush : Flush (inner ++ ['\x7d']) := by
      simpa only [inner, List.append_assoc] using f.body.flush_text _
    have hheader := header?_eq_some_iff.mpr ⟨hflush, f.header, rfl, rfl⟩
    have hbody : bodyText inner = f.body.text := bodyText_append f.body.exists_last _ _ _
    refine ⟨⟨f.afterExport.isSome, f.header.name.text,
      f.text.take (f.text.length - (inner ++ ['\x7d']).length), f.body.text⟩, f.body.expr, ?_,
      readBody_eq_ok_iff.mpr ⟨f.body, rfl, rfl⟩, rfl⟩
    rw [Line.function?, hwhole, exported?_exportText]
    simp only [Option.bind_eq_bind, hheader, Option.bind_some, Path.dropSuffix?_append, hbody]

/-! ### Imports -/

theorem isImportEnd_iff {s : List Char} :
    isImportEnd s = true ↔
      ∃ (w : Blanks) (semicolon : Bool), s = w.text ++ semicolonText semicolon := by
  rw [isImportEnd, Bool.or_eq_true, beq_iff_eq, beq_iff_eq, trimStart_eq_iff, trimStart_eq_iff]
  constructor
  · rintro (⟨-, w, hsame⟩ | ⟨-, w, hsame⟩)
    · exact ⟨w, false, hsame⟩
    · exact ⟨w, true, hsame⟩
  · rintro ⟨w, semicolon, hsame⟩
    cases semicolon with
    | false => exact .inl ⟨flush_nil, w, hsame⟩
    | true => exact .inr ⟨flush_cons.mpr (by decide), w, hsame⟩

theorem Gap.any_head? (gap : Gap) (s : List Char) :
    (gap.text ++ s).head?.any isBlank = true := by
  obtain ⟨c, w, hsame⟩ := List.exists_cons_of_ne_nil gap.ne_nil
  rw [hsame]
  exact gap.blank c (by simp [hsame])

theorem Gap.any_getLast? (gap : Gap) (s : List Char) :
    (s ++ gap.text).getLast?.any isBlank = true := by
  rw [List.getLast?_append, List.getLast?_eq_some_getLast gap.ne_nil, Option.some_or]
  exact gap.blank _ (List.getLast_mem gap.ne_nil)

/-- A clause may hold blanks, so that one blank on either side of it is enough. -/
theorem isSpacedClause_iff {s : List Char} :
    isSpacedClause s = true ↔ ∃ (gap : Gap) (clause : Clause) (gap' : Gap),
      s = gap.text ++ (clause.text ++ gap'.text) := by
  unfold isSpacedClause
  simp only [Bool.and_eq_true, decide_eq_true_eq]
  constructor
  · rintro ⟨⟨⟨hlong, hfirst⟩, hlast⟩, hinside⟩
    obtain ⟨a, t, rfl⟩ := List.exists_cons_of_length_pos (l := s) (by omega)
    rcases List.eq_nil_or_concat t with rfl | ⟨mid, z, rfl⟩
    · exact absurd hlong (by simp)
    · simp only [List.concat_eq_append] at *
      have hne : mid ≠ [] := by
        rintro rfl
        simp at hlong
      refine ⟨⟨⟨[a], by simpa using hfirst⟩, by simp⟩, ⟨mid, hne, ?_⟩, ⟨⟨[z], ?_⟩, by simp⟩, rfl⟩
      · intro c hmember
        exact List.all_eq_true.mp hinside c (by simp [hmember])
      · rw [← List.cons_append, List.getLast?_concat] at hlast
        simpa using hlast
  · rintro ⟨gap, clause, gap', rfl⟩
    have hlengths := List.length_pos_iff.mpr gap.ne_nil
    have hlengths' := List.length_pos_iff.mpr clause.ne_nil
    have hlengths'' := List.length_pos_iff.mpr gap'.ne_nil
    refine ⟨⟨⟨?_, gap.any_head? _⟩, ?_⟩, ?_⟩
    · rw [List.length_append, List.length_append]
      omega
    · rw [← List.append_assoc]
      exact gap'.any_getLast? _
    · rw [List.all_append, List.all_append, List.all_eq_true.mpr clause.inside,
        List.all_eq_true.mpr fun c hmember => inClause_of_isBlank (gap.blank c hmember),
        List.all_eq_true.mpr fun c hmember => inClause_of_isBlank (gap'.blank c hmember)]
      rfl

theorem isImportFront_iff {s : List Char} :
    isImportFront s = true ↔ ∃ gap from?, s = ImportSyntax.frontText gap from? := by
  have hword : ∃ front, "from".toList = front ++ ['m'] := ⟨"fro".toList, by decide⟩
  unfold isImportFront ImportSyntax.frontText FromClause.text
  -- Spelled out, the word would be taken apart as a list.
  generalize "from".toList = from' at *
  obtain ⟨front, rfl⟩ := hword
  simp only [Bool.and_eq_true, Bool.or_eq_true]
  constructor
  · rintro ⟨hlast, hblanks | hclause⟩
    · have hne : s ≠ [] := by
        rintro rfl
        exact nomatch hlast
      exact ⟨⟨⟨s, List.all_eq_true.mp hblanks⟩, hne⟩, none, (List.append_nil s).symm⟩
    · split at hclause
      · rename_i spaced hdropped
        obtain ⟨gap, names, gap', rfl⟩ := isSpacedClause_iff.mp hclause
        obtain ⟨w, hsame, hblank⟩ := exists_trimEnd_append s
        rw [Path.dropSuffix?_eq_some hdropped] at hsame
        have hne : w ≠ [] := by
          rintro rfl
          rw [hsame, List.append_nil, ← List.append_assoc, List.getLast?_concat] at hlast
          exact nomatch hlast
        refine ⟨gap, some ⟨names, gap', ⟨⟨w, hblank⟩, hne⟩⟩, ?_⟩
        simpa [List.append_assoc] using hsame
      · exact nomatch hclause
  · rintro ⟨gap, from?, rfl⟩
    cases from? with
    | none =>
        refine ⟨by simpa using gap.any_getLast? [], .inl ?_⟩
        simpa using gap.blank
    | some f =>
        have hwhole : gap.text ++ (f.clause.text ++ (f.beforeFrom.text ++ (front ++ ['m'] ++
            f.afterFrom.text))) =
            gap.text ++ (f.clause.text ++ f.beforeFrom.text) ++ (front ++ ['m']) ++ f.afterFrom.text := by
          simp only [List.append_assoc]
        simp only [Option.map_some, Option.getD_some, hwhole]
        refine ⟨f.afterFrom.any_getLast? _, .inr ?_⟩
        have htrimmed : trimEnd (gap.text ++ (f.clause.text ++ f.beforeFrom.text) ++ (front ++ ['m']) ++
            f.afterFrom.text) =
            gap.text ++ (f.clause.text ++ f.beforeFrom.text) ++ (front ++ ['m']) := by
          rw [trimEnd_append_blanks, ← List.append_assoc, trimEnd_concat _ (by decide)]
        rw [htrimmed, Path.dropSuffix?_append]
        exact isSpacedClause_iff.mpr ⟨gap, f.clause, f.beforeFrom, rfl⟩

theorem keyword_eq_some_iff {line s : List Char} :
    (after? "import".toList line <|> after? "export".toList line) = some s ↔
      ∃ reexport : Bool, line = ImportSyntax.keywordText reexport ++ s := by
  constructor
  · intro h
    cases hread : after? "import".toList line with
    | some t =>
        rw [hread] at h
        obtain rfl := Option.some.inj h
        exact ⟨false, after?_eq_some_iff.mp hread⟩
    | none =>
        rw [hread] at h
        exact ⟨true, after?_eq_some_iff.mp h⟩
  · rintro ⟨reexport, rfl⟩
    cases reexport with
    | false =>
        have hread : after? "import".toList (ImportSyntax.keywordText false ++ s) = some s :=
          after?_eq_some_iff.mpr rfl
        rw [hread]
        rfl
    | true =>
        have hfirst : "export".toList.head? = some 'e' := by decide
        have hother : after? "import".toList (ImportSyntax.keywordText true ++ s) = none := by
          refine after?_eq_none_of_head? (c := 'i') (d := 'e') (by decide) ?_ (by decide)
          exact List.mem_head?_append_of_mem_head? hfirst
        rw [hother]
        exact after?_eq_some_iff.mpr rfl

/-- A text is cut at its first quote. -/
theorem span_quote_iff {s front rest : List Char} {c : Char} :
    (s.takeWhile (fun c => !isQuote c) = front ∧ s.dropWhile (fun c => !isQuote c) = c :: rest) ↔
      s = front ++ c :: rest ∧ Unquoted front ∧ isQuote c = true := by
  rw [span_eq_iff]
  simp [Unquoted]

theorem span_quote {front : List Char} {c : Char} (h : Unquoted front) (hquote : isQuote c = true)
    (rest : List Char) :
    (front ++ c :: rest).takeWhile (fun c => !isQuote c) = front ∧
      (front ++ c :: rest).dropWhile (fun c => !isQuote c) = c :: rest :=
  span_quote_iff.mpr ⟨rfl, h, hquote⟩

/-- The lines that can be read as an import are those of the grammar. -/
theorem import?_eq_some_iff {line : List Char} {specifier : List Char} :
    Line.import? line = some specifier ↔
      ∃ i : ImportSyntax, i.text = line ∧ i.specifier.text = specifier := by
  unfold Line.import?
  simp only [Option.bind_eq_bind, Option.bind_eq_some_iff, keyword_eq_some_iff]
  constructor
  · rintro ⟨s, ⟨reexport, rfl⟩, hread⟩
    split at hread
    · exact nomatch hread
    · rename_i q t hopened
      split at hread
      · exact nomatch hread
      · rename_i q' rest hclosed
        obtain ⟨hsame, -, hquotes⟩ := span_quote_iff.mp ⟨rfl, hopened⟩
        obtain ⟨hsame', hunquoted, hquotes'⟩ := span_quote_iff.mp ⟨rfl, hclosed⟩
        simp only [Option.ite_none_right_eq_some, Bool.and_eq_true, Bool.not_eq_true',
          List.isEmpty_eq_false_iff, Option.some.injEq] at hread
        obtain ⟨⟨⟨hfront, hne⟩, hlast⟩, rfl⟩ := hread
        obtain ⟨gap, from?, hfront⟩ := isImportFront_iff.mp hfront
        obtain ⟨w, semicolon, rfl⟩ := isImportEnd_iff.mp hlast
        refine ⟨⟨reexport, gap, from?, ⟨q, hquotes⟩, ⟨_, hne, hunquoted⟩, ⟨q', hquotes'⟩, w, semicolon⟩,
          ?_, rfl⟩
        rw [ImportSyntax.text, ← hfront, ← hsame', ← hsame]
  · rintro ⟨i, rfl, rfl⟩
    refine ⟨_, ⟨i.reexport, rfl⟩, ?_⟩
    obtain ⟨hfront, hopened⟩ :=
      span_quote (ImportSyntax.unquoted_frontText i.afterKeyword i.from?) i.opening.quotes
        (i.specifier.text ++ i.closing.sign :: (i.beforeSemicolon.text ++ semicolonText i.semicolon))
    obtain ⟨hinner, hclosed⟩ := span_quote i.specifier.unquoted i.closing.quotes
      (i.beforeSemicolon.text ++ semicolonText i.semicolon)
    have hfront' := isImportFront_iff.mpr ⟨i.afterKeyword, i.from?, rfl⟩
    have hlast := isImportEnd_iff.mpr ⟨i.beforeSemicolon, i.semicolon, rfl⟩
    have hne := List.isEmpty_eq_false_iff.mpr i.specifier.ne_nil
    simp only [hfront, hopened, hinner, hclosed, hfront', hlast, hne, Bool.not_false, Bool.and_self,
      if_true]

/-! ### Whole lines -/

/-- A line that is blank or a comment. -/
def Skipped (line : List Char) : Prop :=
  line = [] ∨ "//".toList <+: line

theorem not_skipped_of_head? {line : List Char} {c : Char} (h : line.head? = some c) (hne : c ≠ '/') :
    ¬ Skipped line := by
  obtain ⟨s, rfl⟩ := List.head?_eq_some_iff.mp h
  rintro (hempty | ⟨t, hsame⟩)
  · exact nomatch hempty
  · exact hne (List.cons.inj hsame).1.symm

theorem FunctionSyntax.not_skipped (f : FunctionSyntax) : ¬ Skipped f.text := by
  have hheader := f.header.head?_text_append
  unfold FunctionSyntax.text
  cases f.afterExport with
  | none => exact not_skipped_of_head? (hheader _) (by decide)
  | some gap =>
      have hfirst : "export".toList.head? = some 'e' := by decide
      refine not_skipped_of_head? (c := 'e') ?_ (by decide)
      exact List.mem_head?_append_of_mem_head? (List.mem_head?_append_of_mem_head? hfirst)

theorem ImportSyntax.not_skipped (i : ImportSyntax) : ¬ Skipped i.text := by
  have hfirst : ∀ reexport, ∃ c, (keywordText reexport).head? = some c ∧ c ≠ '/' := by
    rintro (_ | _)
    · exact ⟨'i', by decide, by decide⟩
    · exact ⟨'e', by decide, by decide⟩
  obtain ⟨c, hhead, hne⟩ := hfirst i.reexport
  exact not_skipped_of_head? (List.mem_head?_append_of_mem_head? hhead) hne

/-- A line does not have both forms: only one of them has quotes. -/
theorem FunctionSyntax.text_ne (f : FunctionSyntax) (i : ImportSyntax) : f.text ≠ i.text := by
  intro hsame
  have hmember : i.opening.sign ∈ f.text := by simp [hsame, ImportSyntax.text]
  exact nomatch (f.unquoted _ hmember).symm.trans i.opening.quotes

/-- What a line is read as, if it is not skipped. -/
theorem ofLine_of_not_skipped {raw : List Char} (h : ¬ Skipped (trim raw)) :
    LineReading.ofLine raw =
      let indent := utf8Size (raw.takeWhile isBlank)
      match Line.import? (trim raw) with
      | some specifier => .imports (String.ofList specifier)
      | none =>
        match Line.function? (trim raw) with
        | some f =>
          match readBody f.body with
          | .ok body =>
            .function (String.ofList f.name) f.exported body indent (indent + utf8Size f.front)
          | .error finding => .fault finding (indent + utf8Size f.front)
        | none => .fault .statementExpected indent := by
  unfold Skipped at h
  rw [not_or, ← List.isEmpty_iff, ← List.isPrefixOf_iff_prefix] at h
  simp only [LineReading.ofLine, h.1, h.2]
  rfl

theorem ofLine_of_skipped {raw : List Char} (h : Skipped (trim raw)) :
    LineReading.ofLine raw = .skipped := by
  unfold Skipped at h
  rw [← List.isEmpty_iff, ← List.isPrefixOf_iff_prefix, ← Bool.or_eq_true] at h
  simp only [LineReading.ofLine, h, if_true]

theorem ofLine_eq_imports_iff {raw : List Char} {specifier : String} :
    LineReading.ofLine raw = .imports specifier ↔
      ∃ i : ImportSyntax, i.text = trim raw ∧ i.declares = specifier := by
  constructor
  · intro h
    by_cases hskipped : Skipped (trim raw)
    · exact nomatch (ofLine_of_skipped hskipped).symm.trans h
    · rw [ofLine_of_not_skipped hskipped] at h
      cases hread : Line.import? (trim raw) with
      | some text =>
          simp only [hread, LineReading.imports.injEq] at h
          obtain ⟨i, hsame, rfl⟩ := import?_eq_some_iff.mp hread
          exact ⟨i, hsame, h⟩
      | none =>
          simp only [hread] at h
          split at h
          · split at h <;> exact nomatch h
          · exact nomatch h
  · rintro ⟨i, hsame, rfl⟩
    rw [ofLine_of_not_skipped (hsame ▸ i.not_skipped), import?_eq_some_iff.mpr ⟨i, hsame, rfl⟩]
    rfl

theorem ofLine_eq_function_iff {raw : List Char} {name : String} {exported : Bool} {body : Expr} :
    (∃ offset bodyOffset, LineReading.ofLine raw = .function name exported body offset bodyOffset) ↔
      ∃ f : FunctionSyntax, f.text = trim raw ∧ f.declares = (name, exported, body) := by
  rw [← function?_eq_some_iff]
  constructor
  · rintro ⟨offset, bodyOffset, h⟩
    by_cases hskipped : Skipped (trim raw)
    · exact nomatch (ofLine_of_skipped hskipped).symm.trans h
    · rw [ofLine_of_not_skipped hskipped] at h
      split at h
      · exact nomatch h
      · split at h
        · rename_i f hread
          split at h
          · rename_i expr hok
            simp only [LineReading.function.injEq] at h
            obtain ⟨rfl, rfl, rfl, -⟩ := h
            exact ⟨f, expr, hread, hok, rfl⟩
          · exact nomatch h
        · exact nomatch h
  · intro h
    obtain ⟨form, hsame, -⟩ := function?_eq_some_iff.mp h
    obtain ⟨f, expr, hread, hok, hdeclared⟩ := h
    obtain ⟨rfl, hrest⟩ := Prod.mk.inj hdeclared
    obtain ⟨rfl, rfl⟩ := Prod.mk.inj hrest
    have hother : Line.import? (trim raw) = none := by
      by_contra hread
      obtain ⟨text, hread⟩ := Option.ne_none_iff_exists'.mp hread
      obtain ⟨i, hsame', -⟩ := import?_eq_some_iff.mp hread
      exact form.text_ne i (hsame.trans hsame'.symm)
    rw [ofLine_of_not_skipped (hsame ▸ form.not_skipped), hother, hread]
    simp only [hok]
    exact ⟨_, _, rfl⟩

/-- A line that is of no form is a fault, unless it is skipped. -/
theorem exists_fault_of_no_form {raw : List Char} (h : ¬ Skipped (trim raw))
    (hnoFunction : ∀ f : FunctionSyntax, f.text ≠ trim raw)
    (hnoImport : ∀ i : ImportSyntax, i.text ≠ trim raw) :
    ∃ finding offset, LineReading.ofLine raw = .fault finding offset := by
  cases hread : LineReading.ofLine raw with
  | skipped =>
      rw [ofLine_of_not_skipped h] at hread
      split at hread
      · exact nomatch hread
      · split at hread
        · split at hread <;> exact nomatch hread
        · exact nomatch hread
  | imports specifier =>
      obtain ⟨i, hsame, -⟩ := ofLine_eq_imports_iff.mp hread
      exact absurd hsame (hnoImport i)
  | function name exported body offset bodyOffset =>
      obtain ⟨f, hsame, -⟩ := ofLine_eq_function_iff.mp ⟨offset, bodyOffset, hread⟩
      exact absurd hsame (hnoFunction f)
  | fault finding offset => exact ⟨finding, offset, rfl⟩

/-! ### The lines of a text -/

/-- However a line is split as a function, the same is declared. -/
theorem FunctionSyntax.declares_eq {f f' : FunctionSyntax} (h : f.text = f'.text) :
    f.declares = f'.declares := by
  obtain ⟨l, body, hread, hok, hsame⟩ := function?_eq_some_iff.mpr ⟨f, h, rfl⟩
  obtain ⟨l', body', hread', hok', hsame'⟩ := function?_eq_some_iff.mpr ⟨f', rfl, rfl⟩
  obtain rfl := Option.some.inj (hread.symm.trans hread')
  obtain rfl := Except.ok.inj (hok.symm.trans hok')
  exact hsame.symm.trans hsame'

theorem ImportSyntax.declares_eq {i i' : ImportSyntax} (h : i.text = i'.text) :
    i.declares = i'.declares := by
  have hread := import?_eq_some_iff.mpr ⟨i, h, rfl⟩
  have hread' := import?_eq_some_iff.mpr ⟨i', rfl, rfl⟩
  exact congrArg String.ofList (Option.some.inj (hread.symm.trans hread'))

namespace NumberedLine

theorem reading_of_mem {text : String} {l : NumberedLine} (h : l ∈ all text) :
    l.reading = .ofLine l.text := by
  obtain ⟨n, hbound, hsame⟩ := List.mem_mapIdx.mp h
  rw [← hsame]

theorem map_text_all (text : String) : (all text).map NumberedLine.text = Text.lines text.toList := by
  apply List.ext_getElem?
  intro n
  rw [all, List.getElem?_map, List.getElem?_mapIdx, Option.map_map]
  exact congrFun Option.map_id _

theorem map_function?_eq_some_iff {l : NumberedLine} (h : l.reading = .ofLine l.text) (file : String)
    (declaration : String × Bool × Expr) :
    (l.function? file).map (fun d => (d.name, d.exported, d.body)) = some declaration ↔
      ∃ f : FunctionSyntax, f.text = trim l.text ∧ f.declares = declaration := by
  obtain ⟨name, exported, body⟩ := declaration
  rw [← ofLine_eq_function_iff, ← h]
  unfold function?
  split
  · rename_i hread
    simp [hread]
  · rename_i hother
    simp only [Option.map_none, reduceCtorEq, false_iff]
    rintro ⟨offset, bodyOffset, hread⟩
    exact hother _ _ _ _ _ hread

theorem map_import?_eq_some_iff {l : NumberedLine} (h : l.reading = .ofLine l.text)
    (path specifier : String) :
    (l.import? path).map Import.specifier = some specifier ↔
      ∃ i : ImportSyntax, i.text = trim l.text ∧ i.declares = specifier := by
  rw [← ofLine_eq_imports_iff, ← h]
  unfold import?
  split
  · rename_i hread
    simp [hread]
  · rename_i hother
    simp only [Option.map_none, reduceCtorEq, false_iff]
    exact hother specifier

end NumberedLine

/-- A source text is read line by line, each line as the grammar says. A line declares a function
exactly if it has the form of one, and then what its parts say, an import likewise, and never both;
which of the ways to split the line is taken makes no difference. A line that has neither form, and
is not skipped, declares nothing and is reported. -/
theorem parse_accepts_line_grammar (path text : String) :
    (ParsedFile.parse path text).imports =
        (NumberedLine.all text).filterMap (NumberedLine.import? path) ∧
      (ParsedFile.parse path text).functions =
        (NumberedLine.all text).filterMap (NumberedLine.function? (ParsedFile.fileName path)) ∧
      (NumberedLine.all text).map NumberedLine.text = Text.lines text.toList ∧
      (∀ l ∈ NumberedLine.all text,
        (∀ declaration, (l.function? (ParsedFile.fileName path)).map
            (fun d => (d.name, d.exported, d.body)) = some declaration ↔
          ∃ f : FunctionSyntax, f.text = trim l.text ∧ f.declares = declaration) ∧
        (∀ specifier, (l.import? path).map Import.specifier = some specifier ↔
          ∃ i : ImportSyntax, i.text = trim l.text ∧ i.declares = specifier) ∧
        (l.function? (ParsedFile.fileName path) = none ∨ l.import? path = none) ∧
        (¬ Skipped (trim l.text) → (∀ f : FunctionSyntax, f.text ≠ trim l.text) →
          (∀ i : ImportSyntax, i.text ≠ trim l.text) →
            l.function? (ParsedFile.fileName path) = none ∧ l.import? path = none ∧
              (l.diagnostic? (ParsedFile.fileName path)).isSome = true)) ∧
      (∀ f f' : FunctionSyntax, f.text = f'.text → f.declares = f'.declares) ∧
      (∀ i i' : ImportSyntax, i.text = i'.text → i.declares = i'.declares) := by
  refine ⟨rfl, rfl, NumberedLine.map_text_all text, ?_, fun _ _ => FunctionSyntax.declares_eq,
    fun _ _ => ImportSyntax.declares_eq⟩
  intro l hmember
  have hreading := NumberedLine.reading_of_mem hmember
  refine ⟨NumberedLine.map_function?_eq_some_iff hreading _,
    NumberedLine.map_import?_eq_some_iff hreading path, ?_, ?_⟩
  · unfold NumberedLine.function? NumberedLine.import?
    cases l.reading <;> simp
  · intro hkept hnoFunction hnoImport
    obtain ⟨finding, offset, hfault⟩ := exists_fault_of_no_form hkept hnoFunction hnoImport
    rw [← hreading] at hfault
    simp [NumberedLine.function?, NumberedLine.import?, NumberedLine.diagnostic?, hfault]

/-- A function between blanks of several kinds, and an import with quotes of both kinds. -/
def unevenLines : NumberedLine × NumberedLine :=
  (⟨1, "\u3000export\tfunction $f ( ) :i32\x7breturn -07 ;\x7d".toList,
      .function "$f" true (.int (-7)) 3 38⟩,
    ⟨2, "export * \x7d from\u00a0'b\"".toList, .imports "b"⟩)

def unevenText : String :=
  String.ofList (unevenLines.1.text ++ '\n' :: unevenLines.2.text)

/-- Both lines of the text are of the grammar, and one of them only as a function. -/
theorem unevenText_accepted :
    (unevenLines.1 ∈ NumberedLine.all unevenText ∧ unevenLines.2 ∈ NumberedLine.all unevenText) ∧
      (∃ f : FunctionSyntax, f.text = trim unevenLines.1.text ∧
        f.declares = ("$f", true, .int (-7))) ∧
      (¬ ∃ i : ImportSyntax, i.text = trim unevenLines.1.text ∧ i.declares = "$f") ∧
      ∃ i : ImportSyntax, i.text = trim unevenLines.2.text ∧ i.declares = "b" := by
  have hmembers : unevenLines.1 ∈ NumberedLine.all unevenText ∧
      unevenLines.2 ∈ NumberedLine.all unevenText := by decide +kernel
  obtain ⟨-, -, -, hlines, -⟩ := parse_accepts_line_grammar "main" unevenText
  obtain ⟨hfunction, hnotImport, -⟩ := hlines _ hmembers.1
  obtain ⟨-, hspecifier, -⟩ := hlines _ hmembers.2
  refine ⟨hmembers, (hfunction _).mp (by decide +kernel), ?_, (hspecifier _).mp (by decide +kernel)⟩
  rw [← hnotImport]
  decide +kernel

end Wasmline
