import Mathlib.Data.List.DropRight
import Mathlib.Data.List.Induction
import Wasmline.Source.Path

/-!
# Where paths lead

The text of a path leads somewhere whatever directories there are: from the top or from where one
stands, up a number of directories and then down along names. `Location` is that, read off the text
from left to right, and two texts are compared by it: `a/../b` leads where `b` does.

An import means the directory of the importing file followed by the specifier. `target` does not walk
along that text. It walks along the specifier on a stack that starts as the importer's directory, in
which `..` may stand behind names. Two facts about the stack carry the comparison. No segment on it
stays where it is, so that what `..` takes off is a name (`along_step`). And `..` is put only on an
empty stack or on another `..`, so that it comes to stand behind a name only if it stood so in the
importer's directory (`pairwise_walk`).

For an importer that does not start from the top, `resolveImport_is_lexical_walk` says what an import
path is. For one that does, the walk is the same, but the slash in front is lost
(`resolveImport_from_top`).
-/

namespace Wasmline.Path

/-- Where a path leads: from the top or from where one stands, so many directories up, and from there
down along these names. -/
structure Location where
  fromTop : Bool
  ups : Nat
  names : List Segment
  deriving DecidableEq, Repr

namespace Location

/-- One segment further. Going up takes back the last name, and is counted if there is none. -/
def advance (l : Location) (s : Segment) : Location :=
  if s = [] ∨ s = ['.'] then l
  else if s = ['.', '.'] then
    if l.names = [] then { l with ups := l.ups + 1 } else { l with names := l.names.dropLast }
  else { l with names := l.names ++ [s] }

/-- Where segments lead, one after the other. -/
def along (l : Location) (parts : List Segment) : Location :=
  parts.foldl advance l

end Location

/-- Where the text of a path leads. -/
def location (path : List Char) : Location :=
  Location.along ⟨isAbsolute path, 0, []⟩ (path.splitOn '/')

/-- The directory of a file as a text: its path up to the last slash, with that slash. -/
def folder (path : List Char) : List Char :=
  path.rdropWhile (· ≠ '/')

/-- No `..` stands behind a name. -/
def UpsFirst (parts : List Segment) : Prop :=
  parts.Pairwise fun s t => t = ['.', '.'] → s = [] ∨ s = ['.'] ∨ s = ['.', '.']

instance (parts : List Segment) : Decidable (UpsFirst parts) :=
  inferInstanceAs (Decidable (parts.Pairwise _))

/-- What is left of a text when one ending is taken off it, if it ends so. -/
def Strips (ending text rest : List Char) : Prop :=
  text = rest ++ ending ∨ text = rest ∧ ¬ ending <:+ text

theorem strips_dropSuffix? (ending text : List Char) :
    Strips ending text ((dropSuffix? ending text).getD text) := by
  rcases hdropped : dropSuffix? ending text with _ | front
  · refine .inr ⟨rfl, ?_⟩
    rintro ⟨front, rfl⟩
    rw [dropSuffix?_append] at hdropped
    exact Option.some_ne_none _ hdropped
  · exact .inl (dropSuffix?_eq_some hdropped)

/-! ### Segments of a text -/

theorem stays_iff {s : Segment} : stays s = true ↔ s = [] ∨ s = ['.'] := by
  simp [stays]

theorem stays_eq_false_iff {s : Segment} : stays s = false ↔ s ≠ [] ∧ s ≠ ['.'] := by
  rw [← Bool.not_eq_true, stays_iff, not_or]

theorem segments_eq_splitOn (path : List Char) : segments path = path.splitOn '/' := by
  induction path with
  | nil => rfl
  | cons c path ih =>
      rw [segments, List.splitOn_cons_eq_if_modifyHead, ih]
      by_cases hslash : c = '/'
      · simp [hslash]
      · obtain ⟨s, rest, hsplit⟩ := List.exists_cons_of_ne_nil (List.splitOn_ne_nil '/' path)
        simp [hslash, hsplit]

/-- A segment is cut out of the text between slashes. -/
theorem of_mem_segments {path : List Char} :
    ∀ {s : Segment}, s ∈ segments path → '/' ∉ s ∧ s ⊆ path := by
  induction path with
  | nil => simp [segments]
  | cons c path ih =>
      intro t ht
      have hinner : ∀ {s : Segment}, s ∈ segments path → '/' ∉ s ∧ s ⊆ c :: path := by
        intro s hs
        exact ⟨(ih hs).1, fun d hd => List.mem_cons_of_mem c ((ih hs).2 hd)⟩
      rw [segments] at ht
      split at ht
      · rcases List.mem_cons.mp ht with rfl | ht
        · simp
        · exact hinner ht
      · rename_i hslash
        split at ht
        · rename_i hnone
          exact absurd hnone (segments_eq_splitOn path ▸ List.splitOn_ne_nil '/' path)
        · rename_i s rest hsplit
          rw [hsplit] at hinner
          rcases List.mem_cons.mp ht with rfl | ht
          · obtain ⟨hfree, hinside⟩ := hinner List.mem_cons_self
            exact ⟨by simp [hfree, Ne.symm hslash], List.cons_subset.mpr ⟨List.mem_cons_self, hinside⟩⟩
          · exact hinner (List.mem_cons_of_mem _ ht)

/-- Either there is no slash in a path, or its directory is what stands in front of the last. -/
theorem folder_cases (path : List Char) :
    ('/' ∉ path ∧ folder path = []) ∨
      ∃ dir last, '/' ∉ last ∧ path = dir ++ '/' :: last ∧ folder path = dir ++ ['/'] := by
  have hpassed : ∀ {text : List Char}, '/' ∉ text → ∀ c ∈ text, decide (c ≠ '/') = true := by
    intro text hfree c hc
    have hother : c ≠ '/' := fun hsame => hfree (hsame ▸ hc)
    simpa using hother
  by_cases hslash : '/' ∈ path
  · right
    obtain ⟨last, dir, hsplit, hfree⟩ := List.eq_append_cons_of_mem (List.mem_reverse.mpr hslash)
    refine ⟨dir.reverse, last.reverse, by simpa using hfree, ?_, ?_⟩
    · simpa using congrArg List.reverse hsplit
    · rw [folder, List.rdropWhile, hsplit, List.dropWhile_append_of_pos (hpassed hfree)]
      simp
  · exact .inl ⟨hslash, List.rdropWhile_eq_nil_iff.mpr (hpassed hslash)⟩

/-- The segments that lead somewhere, in a file's directory followed by more text, are those of the
directory and those of the text. -/
theorem filter_splitOn_folder_append (path more : List Char) :
    ((folder path ++ more).splitOn '/').filter (fun s => !stays s) =
      directory path ++ (more.splitOn '/').filter fun s => !stays s := by
  rw [directory, segments_eq_splitOn]
  rcases folder_cases path with ⟨hfree, hnone⟩ | ⟨dir, last, hfree, hsplit, hfront⟩
  · rw [hnone, List.splitOn_eq_singleton hfree]
    rfl
  · rw [hfront, hsplit, List.append_assoc, List.singleton_append, List.splitOn_append_cons_self,
      List.splitOn_append_cons_self, List.splitOn_eq_singleton hfree, List.dropLast_concat,
      List.filter_append]

theorem isAbsolute_folder_append {path more : List Char} (hrelative : isAbsolute more = false) :
    isAbsolute (folder path ++ more) = isAbsolute path := by
  rcases folder_cases path with ⟨hfree, hnone⟩ | ⟨dir, last, -, hsplit, hfront⟩
  · have hplain : isAbsolute path = false := by
      rw [isAbsolute, beq_eq_false_iff_ne]
      exact fun hslash => hfree (List.mem_of_head? hslash)
    rw [hnone, List.nil_append, hrelative, hplain]
  · rw [hfront, hsplit]
    cases dir <;> rfl

/-! ### Segments put together -/

section Join

variable {parts : List Segment}

/-- Segments that each lead somewhere, and have no slash in them. -/
def Proper (parts : List Segment) : Prop :=
  ∀ s ∈ parts, s ≠ [] ∧ s ≠ ['.'] ∧ '/' ∉ s

theorem Proper.moving (hproper : Proper parts) : ∀ s ∈ parts, stays s = false := by
  intro s hs
  obtain ⟨hnonempty, hother, -⟩ := hproper s hs
  exact stays_eq_false_iff.mpr ⟨hnonempty, hother⟩

theorem splitOn_join (hproper : Proper parts) (hne : parts ≠ []) :
    (join parts).splitOn '/' = parts :=
  List.splitOn_intercalate '/' (fun s hs => (hproper s hs).2.2) hne

theorem join_eq_nil_iff (hproper : Proper parts) : join parts = [] ↔ parts = [] := by
  constructor
  · intro hnone
    by_contra hne
    have hsplit := splitOn_join hproper hne
    rw [hnone, List.splitOn_nil] at hsplit
    exact (hproper [] (hsplit ▸ List.mem_singleton_self [])).1 rfl
  · rintro rfl
    rfl

theorem join_eq_iff (hproper : Proper parts) {s : Segment} (hnonempty : s ≠ []) (hfree : '/' ∉ s) :
    join parts = s ↔ parts = [s] := by
  constructor
  · intro hsame
    have hne : parts ≠ [] := by
      rintro rfl
      exact hnonempty hsame.symm
    rw [← splitOn_join hproper hne, hsame, List.splitOn_eq_singleton hfree]
  · rintro rfl
    exact List.intercalate_singleton

theorem suffix_join_concat (parts : List Segment) (s : Segment) : s <:+ join (parts ++ [s]) := by
  induction parts with
  | nil => exact ⟨[], List.intercalate_singleton.symm⟩
  | cons t parts ih =>
      rw [List.cons_append, join, List.intercalate_cons_of_ne_nil (by simp)]
      exact ih.trans (List.suffix_append _ _)

theorem mem_join {c : Char} (h : c ∈ join parts) : c = '/' ∨ ∃ s ∈ parts, c ∈ s := by
  induction parts with
  | nil => exact absurd h List.not_mem_nil
  | cons s parts ih =>
      by_cases hlast : parts = []
      · subst hlast
        exact .inr ⟨s, List.mem_cons_self, by simpa [join] using h⟩
      · rw [join, List.intercalate_cons_of_ne_nil hlast] at h
        rcases List.mem_append.mp h with hfront | hback
        · rcases List.mem_append.mp hfront with hfirst | hslash
          · exact .inr ⟨s, List.mem_cons_self, hfirst⟩
          · exact .inl (List.mem_singleton.mp hslash)
        · rcases ih hback with hslash | ⟨t, ht, hmem⟩
          · exact .inl hslash
          · exact .inr ⟨t, List.mem_cons_of_mem _ ht, hmem⟩

theorem isAbsolute_join (hproper : Proper parts) : isAbsolute (join parts) = false := by
  rw [isAbsolute, beq_eq_false_iff_ne]
  intro hslash
  obtain ⟨rest, htext⟩ := List.head?_eq_some_iff.mp hslash
  have hne : parts ≠ [] := by
    rintro rfl
    exact List.cons_ne_nil _ _ htext.symm
  have hsplit := splitOn_join hproper hne
  rw [htext, List.splitOn_cons_eq_if_modifyHead] at hsplit
  exact (hproper [] (hsplit ▸ List.mem_cons_self)).1 rfl

end Join

namespace Location

/-! ### Walking along segments -/

@[simp] theorem along_nil (l : Location) : l.along [] = l := rfl

@[simp] theorem along_cons (l : Location) (s : Segment) (parts : List Segment) :
    l.along (s :: parts) = (l.advance s).along parts := rfl

theorem along_append (l : Location) (parts more : List Segment) :
    l.along (parts ++ more) = (l.along parts).along more :=
  List.foldl_append

theorem along_concat (l : Location) (parts : List Segment) (s : Segment) :
    l.along (parts ++ [s]) = (l.along parts).advance s :=
  l.along_append parts [s]

theorem advance_of_stays (l : Location) {s : Segment} (h : stays s = true) : l.advance s = l :=
  if_pos (stays_iff.mp h)

theorem advance_of_name (l : Location) {s : Segment} (hmoves : stays s = false) (hname : s ≠ up) :
    l.advance s = { l with names := l.names ++ [s] } := by
  have hname : s ≠ ['.', '.'] := hname
  rw [advance, if_neg (not_or.mpr (stays_eq_false_iff.mp hmoves)), if_neg hname]

/-- What goes down to a name is taken back by going up. -/
theorem advance_up_of_name (l : Location) {s : Segment} (hmoves : stays s = false) (hname : s ≠ up) :
    (l.advance s).advance up = l := by
  rw [advance_of_name l hmoves hname]
  simp [advance, up]

theorem advance_from (l : Location) (top : Bool) (s : Segment) :
    { l with fromTop := top }.advance s = { l.advance s with fromTop := top } := by
  unfold advance
  split_ifs <;> rfl

/-- What one starts from does not bear on the rest of the way. -/
theorem along_from (l : Location) (top : Bool) (parts : List Segment) :
    { l with fromTop := top }.along parts = { l.along parts with fromTop := top } := by
  induction parts generalizing l with
  | nil => rfl
  | cons s parts ih => rw [along_cons, advance_from, ih, along_cons]

/-- Segments that stay where they are can be left out. -/
theorem along_filter (l : Location) (parts : List Segment) :
    l.along (parts.filter fun s => !stays s) = l.along parts := by
  induction parts generalizing l with
  | nil => rfl
  | cons s parts ih =>
      by_cases h : stays s = true
      · rw [List.filter_cons_of_neg (by simp [h]), ih, along_cons, advance_of_stays l h]
      · rw [List.filter_cons_of_pos (by simp [h]), along_cons, along_cons, ih]

end Location

theorem location_join {parts : List Segment} (hproper : Proper parts) :
    location (join parts) = Location.along ⟨false, 0, []⟩ parts := by
  rw [location, isAbsolute_join hproper]
  by_cases hne : parts = []
  · subst hne
    rfl
  · rw [splitOn_join hproper hne]

/-- Behind a slash, a path goes on from where it leads. -/
theorem location_append_slash {path : List Char} (hne : path ≠ []) (more : List Char) :
    location (path ++ '/' :: more) = (location path).along (more.splitOn '/') := by
  obtain ⟨c, rest, rfl⟩ := List.exists_cons_of_ne_nil hne
  rw [location, List.splitOn_append_cons_self, Location.along_append]
  rfl

theorem location_slash_join {parts : List Segment} (hproper : Proper parts) :
    location ('/' :: join parts) = Location.along ⟨true, 0, []⟩ parts := by
  have hsplit : ('/' :: join parts).splitOn '/' = [] :: (join parts).splitOn '/' :=
    List.splitOn_append_cons_self [] (join parts)
  rw [location, hsplit]
  by_cases hne : parts = []
  · subst hne
    rfl
  · rw [splitOn_join hproper hne]
    rfl

/-! ### The stack -/

/-- What one segment does to the stack: nothing, or it is put on top, or `..` takes a name off. It is put
on top only if it leads somewhere, and `..` only on nothing or on another `..`. -/
theorem step_cases (walked : List Segment) (s : Segment) :
    (stays s = true ∧ step walked s = walked) ∨
      (stays s = false ∧ step walked s = s :: walked ∧ (s = up → ∀ t ∈ walked.head?, t = up)) ∨
      (s = up ∧ ∃ inner outer, walked = inner :: outer ∧ inner ≠ up ∧ step walked s = outer) := by
  unfold step
  by_cases h : stays s = true
  · exact .inl ⟨h, if_pos h⟩
  · have hmoves : stays s = false := by simpa using h
    rw [if_neg h]
    by_cases hgoesUp : s = up
    · subst hgoesUp
      rw [if_pos rfl]
      rcases walked with _ | ⟨inner, outer⟩
      · exact .inr (.inl ⟨hmoves, rfl, by simp⟩)
      · by_cases hagain : inner = up
        · exact .inr (.inl ⟨hmoves, if_pos hagain, by simp [hagain]⟩)
        · exact .inr (.inr ⟨rfl, inner, outer, rfl, hagain, if_neg hagain⟩)
    · exact .inr (.inl ⟨hmoves, if_neg hgoesUp, fun hsame => absurd hsame hgoesUp⟩)

theorem mem_step {walked : List Segment} {s t : Segment} (h : t ∈ step walked s) :
    t ∈ walked ∨ t = s ∧ stays t = false := by
  rcases step_cases walked s with ⟨-, hsame⟩ | ⟨hmoves, hsame, -⟩ | ⟨-, inner, outer, rfl, -, hsame⟩
  · exact .inl (hsame ▸ h)
  · rw [hsame] at h
    rcases List.mem_cons.mp h with rfl | h
    · exact .inr ⟨rfl, hmoves⟩
    · exact .inl h
  · exact .inl (List.mem_cons_of_mem _ (hsame ▸ h))

/-- The stack leads where its segments do: one segment more is one segment further. -/
theorem along_step (l : Location) {walked : List Segment} (hmoving : ∀ t ∈ walked, stays t = false)
    (s : Segment) :
    l.along (step walked s).reverse = (l.along walked.reverse).advance s := by
  rcases step_cases walked s with ⟨h, hsame⟩ | ⟨-, hsame, -⟩ | ⟨rfl, inner, outer, rfl, hname, hsame⟩
  · rw [hsame, Location.advance_of_stays _ h]
  · rw [hsame, List.reverse_cons, Location.along_concat]
  · rw [hsame, List.reverse_cons, Location.along_concat,
      Location.advance_up_of_name _ (hmoving inner List.mem_cons_self) hname]

/-- `..` is never taken off the stack. -/
theorem up_mem_step {walked : List Segment} (h : up ∈ walked) (s : Segment) :
    up ∈ step walked s := by
  rcases step_cases walked s with ⟨-, hsame⟩ | ⟨-, hsame, -⟩ | ⟨-, inner, outer, rfl, hname, hsame⟩
  · rwa [hsame]
  · rw [hsame]
    exact List.mem_cons_of_mem _ h
  · rw [hsame]
    exact (List.mem_cons.mp h).resolve_left (Ne.symm hname)

/-- On a stack whose `..` are at the bottom, another `..` can only come on top of those. -/
theorem pairwise_step {walked : List Segment} (h : walked.Pairwise fun t s => t = up → s = up)
    (s : Segment) : (step walked s).Pairwise fun t s => t = up → s = up := by
  rcases step_cases walked s with ⟨-, hsame⟩ | ⟨-, hsame, htop⟩ | ⟨-, inner, outer, rfl, -, hsame⟩
  · rwa [hsame]
  · rw [hsame]
    refine List.pairwise_cons.mpr ⟨?_, h⟩
    intro t ht hgoesUp
    rcases walked with _ | ⟨inner, outer⟩
    · exact absurd ht List.not_mem_nil
    · have hfirst : inner = up := htop hgoesUp inner rfl
      rcases List.mem_cons.mp ht with rfl | ht
      · exact hfirst
      · exact (List.pairwise_cons.mp h).1 t ht hfirst
  · rw [hsame]
    exact (List.pairwise_cons.mp h).2

section Walk

variable {walked : List Segment}

theorem mem_walk (parts : List Segment) {t : Segment} (h : t ∈ parts.foldl step walked) :
    t ∈ walked ∨ t ∈ parts ∧ stays t = false := by
  induction parts generalizing walked with
  | nil => exact .inl h
  | cons s parts ih =>
      rcases ih h with h | ⟨hmem, hmoves⟩
      · rcases mem_step h with hmem | ⟨rfl, hmoves⟩
        · exact .inl hmem
        · exact .inr ⟨List.mem_cons_self, hmoves⟩
      · exact .inr ⟨List.mem_cons_of_mem _ hmem, hmoves⟩

theorem along_walk (l : Location) (hmoving : ∀ t ∈ walked, stays t = false)
    (parts : List Segment) :
    l.along (parts.foldl step walked).reverse = (l.along walked.reverse).along parts := by
  induction parts generalizing walked with
  | nil => rfl
  | cons s parts ih =>
      have hstill : ∀ t ∈ step walked s, stays t = false := by
        intro t ht
        rcases mem_step ht with hmem | ⟨-, hmoves⟩
        · exact hmoving t hmem
        · exact hmoves
      rw [List.foldl_cons, ih hstill, along_step l hmoving, Location.along_cons]

theorem up_mem_walk (parts : List Segment) (h : up ∈ walked) : up ∈ parts.foldl step walked := by
  induction parts generalizing walked with
  | nil => exact h
  | cons s parts ih => exact ih (up_mem_step h s)

theorem pairwise_walk (parts : List Segment) (h : walked.Pairwise fun t s => t = up → s = up) :
    (parts.foldl step walked).Pairwise fun t s => t = up → s = up := by
  induction parts generalizing walked with
  | nil => exact h
  | cons s parts ih => exact ih (pairwise_step h s)

end Walk

/-! ### The segments of an import -/

section Target

variable (importer specifier : List Char)

theorem directory_eq_filter (path : List Char) :
    directory path = ((folder path).splitOn '/').filter fun s => !stays s := by
  have hnone : (([] : List Char).splitOn '/').filter (fun s => !stays s) = [] := rfl
  have hboth := filter_splitOn_folder_append path []
  rw [hnone, List.append_nil, List.append_nil] at hboth
  exact hboth.symm

theorem stays_of_mem_directory {path : List Char} {s : Segment} (h : s ∈ directory path) :
    stays s = false := by
  have hmoves := (List.mem_filter.mp h).2
  simpa using hmoves

theorem target_of_relative {specifier : List Char} (hrelative : isAbsolute specifier = false) :
    target importer specifier =
      ((segments specifier).foldl step (directory importer).reverse).reverse := by
  simp [target, hrelative]

theorem target_of_absolute {specifier : List Char} (habsolute : isAbsolute specifier = true) :
    target importer specifier = ((segments specifier).foldl step []).reverse := by
  simp [target, habsolute]

theorem proper_of_moving {path : List Char} {s : Segment} (hmem : s ∈ segments path)
    (hmoves : stays s = false) : s ≠ [] ∧ s ≠ ['.'] ∧ '/' ∉ s := by
  obtain ⟨hnonempty, hother⟩ := stays_eq_false_iff.mp hmoves
  exact ⟨hnonempty, hother, (of_mem_segments hmem).1⟩

/-- The segments of an import come from the importer's directory or from the specifier. -/
theorem mem_target {importer specifier : List Char} {s : Segment}
    (h : s ∈ target importer specifier) :
    s ∈ directory importer ∨ s ∈ segments specifier ∧ stays s = false := by
  have hwalked : s ∈ (segments specifier).foldl step
      (if isAbsolute specifier then [] else (directory importer).reverse) := by
    simpa [target] using h
  rcases mem_walk _ hwalked with hbegun | hmem
  · split at hbegun
    · exact absurd hbegun List.not_mem_nil
    · exact .inl (List.mem_reverse.mp hbegun)
  · exact .inr hmem

theorem mem_segments_of_mem_directory {path : List Char} {s : Segment} (h : s ∈ directory path) :
    s ∈ segments path :=
  List.dropLast_subset _ (List.mem_filter.mp h).1

theorem proper_target : Proper (target importer specifier) := by
  intro s hs
  rcases mem_target hs with hmem | ⟨hmem, hmoves⟩
  · exact proper_of_moving (mem_segments_of_mem_directory hmem) (stays_of_mem_directory hmem)
  · exact proper_of_moving hmem hmoves

theorem along_target_of_absolute (l : Location) {specifier : List Char}
    (habsolute : isAbsolute specifier = true) :
    l.along (target importer specifier) = l.along (specifier.splitOn '/') := by
  rw [target_of_absolute importer habsolute, along_walk l (by simp), segments_eq_splitOn]
  rfl

/-- **The walk on the stack leads where the importer's directory followed by the specifier leads.** -/
theorem location_folder_append {specifier : List Char} (hrelative : isAbsolute specifier = false) :
    location (folder importer ++ specifier) =
      Location.along ⟨isAbsolute importer, 0, []⟩ (target importer specifier) := by
  have hmoving : ∀ s ∈ (directory importer).reverse, stays s = false := by
    intro s hs
    exact stays_of_mem_directory (List.mem_reverse.mp hs)
  rw [location, isAbsolute_folder_append hrelative]
  generalize (⟨isAbsolute importer, 0, []⟩ : Location) = l
  calc l.along ((folder importer ++ specifier).splitOn '/')
    _ = l.along (directory importer ++ (specifier.splitOn '/').filter fun s => !stays s) := by
        rw [← filter_splitOn_folder_append, Location.along_filter]
    _ = (l.along (directory importer)).along (specifier.splitOn '/') := by
        rw [Location.along_append, Location.along_filter]
    _ = l.along (target importer specifier) := by
        rw [target_of_relative importer hrelative, along_walk l hmoving, List.reverse_reverse,
          segments_eq_splitOn]

theorem up_mem_target {specifier : List Char} (hrelative : isAbsolute specifier = false)
    (h : up ∈ directory importer) : up ∈ target importer specifier := by
  rw [target_of_relative importer hrelative, List.mem_reverse]
  exact up_mem_walk _ (List.mem_reverse.mpr h)

/-- Where no segment stays, only `..` can stand in front of `..`. -/
theorem upsFirst_iff {parts : List Segment} (hmoving : ∀ s ∈ parts, stays s = false) :
    UpsFirst parts ↔ parts.Pairwise fun s t => t = up → s = up := by
  refine List.Pairwise.iff_of_mem ?_
  intro s t hs _
  obtain ⟨hnonempty, hother⟩ := stays_eq_false_iff.mp (hmoving s hs)
  simp [hnonempty, hother, up]

theorem upsFirst_target {specifier : List Char} (hrelative : isAbsolute specifier = false)
    (h : UpsFirst ((folder importer).splitOn '/')) : UpsFirst (target importer specifier) := by
  have hbegun : (directory importer).Pairwise fun s t => t = up → s = up := by
    refine (upsFirst_iff fun s hs => stays_of_mem_directory hs).mp ?_
    rw [directory_eq_filter]
    exact List.Pairwise.filter _ h
  rw [upsFirst_iff (proper_target importer specifier).moving, target_of_relative importer hrelative,
    List.pairwise_reverse]
  exact pairwise_walk _ (List.pairwise_reverse.mpr hbegun)

end Target

/-! ### Segments from where they lead -/

/-- Names lead down along themselves. -/
theorem Location.along_names (l : Location) {names : List Segment}
    (hmoving : ∀ s ∈ names, stays s = false) (hplain : up ∉ names) :
    l.along names = { l with names := l.names ++ names } := by
  induction names generalizing l with
  | nil => simp
  | cons s names ih =>
      obtain ⟨hmoves, hmoving⟩ := List.forall_mem_cons.mp hmoving
      obtain ⟨hname, hplain⟩ := not_or.mp (mt List.mem_cons.mpr hplain)
      rw [along_cons, advance_of_name l hmoves (Ne.symm hname), ih _ hmoving hplain]
      simp

/-- Segments in which no `..` stands behind a name can be told from where they lead. -/
theorem eq_of_upsFirst {parts : List Segment} (hmoving : ∀ s ∈ parts, stays s = false)
    (h : UpsFirst parts) (top : Bool) :
    let l := Location.along ⟨top, 0, []⟩ parts
    parts = List.replicate l.ups up ++ l.names ∧ up ∉ l.names := by
  rw [upsFirst_iff hmoving] at h
  -- From the left, so that what stands in front of the last segment is known when it is met.
  induction parts using List.reverseRecOn with
  | nil => simp
  | append_singleton parts s ih =>
      obtain ⟨hbegun, -, hlast⟩ := List.pairwise_append.mp h
      obtain ⟨hsplit, hplain⟩ := ih (fun t ht => hmoving t (List.mem_append_left _ ht)) hbegun
      rw [Location.along_concat]
      generalize Location.along ⟨top, 0, []⟩ parts = l at hsplit hplain ⊢
      by_cases hgoesUp : s = up
      · subst hgoesUp
        have hnone : l.names = [] := by
          refine List.eq_nil_iff_forall_not_mem.mpr ?_
          intro t ht
          have hmem : t ∈ parts := hsplit ▸ List.mem_append_right _ ht
          have hsame : t = up := hlast t hmem up (List.mem_singleton_self up) rfl
          exact hplain (hsame ▸ ht)
        rw [hsplit, hnone]
        simp [Location.advance, up, hnone, List.replicate_succ']
      · have hmoves := hmoving s (List.mem_append_right _ (List.mem_singleton_self s))
        rw [Location.advance_of_name l hmoves hgoesUp, hsplit]
        simp [hplain, Ne.symm hgoesUp]

theorem up_mem_directory_iff {path : List Char} :
    up ∈ directory path ↔ up ∈ (folder path).splitOn '/' := by
  rw [directory_eq_filter, List.mem_filter]
  exact and_iff_left rfl

/-- An import leads down along names alone, and is spelled so, exactly if its text leads there and
there is no `..` in the importer's directory: a `..` that stands there is never taken back. -/
theorem target_eq_names_iff {importer specifier : List Char}
    (hrelative : isAbsolute specifier = false) {names : List Segment}
    (hmoving : ∀ s ∈ names, stays s = false) (hplain : up ∉ names) :
    target importer specifier = names ↔
      up ∉ (folder importer).splitOn '/' ∧
        location (folder importer ++ specifier) = ⟨isAbsolute importer, 0, names⟩ := by
  rw [← up_mem_directory_iff, location_folder_append importer hrelative]
  constructor
  · rintro rfl
    refine ⟨mt (up_mem_target importer hrelative) hplain, ?_⟩
    rw [Location.along_names _ hmoving hplain, List.nil_append]
  · rintro ⟨hfree, hleads⟩
    have hfirst : UpsFirst ((folder importer).splitOn '/') := by
      refine List.pairwise_of_forall_mem_list ?_
      rintro s - t ht rfl
      exact absurd (up_mem_directory_iff.mpr ht) hfree
    obtain ⟨hspelled, -⟩ := eq_of_upsFirst (proper_target importer specifier).moving
      (upsFirst_target importer hrelative hfirst) (isAbsolute importer)
    rw [hleads] at hspelled
    simpa using hspelled

/-! ### Import paths -/

namespace Strips

variable {ending text rest : List Char}

/-- What is left of a text is known. -/
theorem eq_iff (h : Strips ending text rest) {other : List Char} :
    rest = other ↔ Strips ending text other := by
  constructor
  · rintro rfl
    exact h
  · intro h'
    rcases h with rfl | ⟨rfl, hmore⟩
    · rcases h' with hsame | ⟨-, hmore⟩
      · exact List.append_cancel_right hsame
      · exact absurd (List.suffix_append _ _) hmore
    · rcases h' with hsame | ⟨hsame, -⟩
      · exact absurd ⟨other, hsame.symm⟩ hmore
      · exact hsame

theorem isAbsolute_eq_false (h : Strips ending text rest) (hrelative : isAbsolute text = false) :
    isAbsolute rest = false := by
  rcases h with rfl | ⟨rfl, -⟩
  · cases rest with
    | nil => rfl
    | cons c rest => exact hrelative
  · exact hrelative

theorem cons (h : Strips ending text rest) {c : Char} (hother : ending.head? ≠ some c) :
    Strips ending (c :: text) (c :: rest) := by
  rcases h with rfl | ⟨rfl, hmore⟩
  · exact .inl rfl
  · refine .inr ⟨rfl, ?_⟩
    intro hends
    rcases List.suffix_cons_iff.mp hends with hwhole | hinner
    · exact hother (congrArg List.head? hwhole)
    · exact hmore hinner

end Strips

section Import

variable (importer : String) {specifier : String}

theorem strips_resolveImport (hrelative : isAbsolute (forward specifier.toList) = false) :
    Strips ".ts".toList (join (target importer.toList (forward specifier.toList)))
      (resolveImport importer specifier).toList := by
  have hstrips := strips_dropSuffix? ".ts".toList
    (join (target importer.toList (forward specifier.toList)))
  simpa [resolveImport, hrelative, sourceExtension] using hstrips

theorem exists_resolveImport_eq_cons (habsolute : isAbsolute (forward specifier.toList) = true) :
    ∃ bare, Strips ".ts".toList (join (target importer.toList (forward specifier.toList))) bare ∧
      (resolveImport importer specifier).toList = '/' :: bare := by
  refine ⟨_, strips_dropSuffix? ".ts".toList _, ?_⟩
  simp [resolveImport, habsolute, sourceExtension]

/-- A specifier that starts from the top means the same in every file. -/
theorem resolveImport_eq_of_absolute (habsolute : isAbsolute (forward specifier.toList) = true)
    (other : String) : resolveImport other specifier = resolveImport importer specifier := by
  simp only [resolveImport, target_of_absolute _ habsolute]

end Import

/-- **An import path is a lexical walk.** If neither the importer nor the specifier starts from the top,
it is a join of segments, less one final extension, that leads where the importer's directory followed
by the specifier leads. No `..` comes to stand behind a name in it that did not stand so in the
directory. A specifier that starts from the top means the same path in every file, which starts from
the top and leads where the specifier does. -/
theorem resolveImport_is_lexical_walk (importer specifier : String)
    (hrelative : isAbsolute importer.toList = false) :
    let result := (resolveImport importer specifier).toList
    let specified := forward specifier.toList
    (isAbsolute specified = false →
      ∃ parts, Proper parts ∧ Strips ".ts".toList (join parts) result ∧
        location (join parts) = location (folder importer.toList ++ specified) ∧
        (UpsFirst ((folder importer.toList).splitOn '/') → UpsFirst parts)) ∧
    (isAbsolute specified = true →
      isAbsolute result = true ∧
      (∀ other, resolveImport other specifier = resolveImport importer specifier) ∧
      ∃ parts, Proper parts ∧ Strips ".ts".toList ('/' :: join parts) result ∧
        location ('/' :: join parts) = location specified) := by
  intro result specified
  have hproper := proper_target importer.toList specified
  refine ⟨?_, ?_⟩
  · intro hplain
    refine ⟨_, hproper, strips_resolveImport importer hplain, ?_, upsFirst_target _ hplain⟩
    rw [location_join hproper, location_folder_append _ hplain, hrelative]
  · intro habsolute
    obtain ⟨bare, hstrips, hshape⟩ := exists_resolveImport_eq_cons importer habsolute
    refine ⟨?_, resolveImport_eq_of_absolute importer habsolute, _, hproper, ?_, ?_⟩
    · show isAbsolute (resolveImport importer specifier).toList = true
      rw [hshape]
      rfl
    · show Strips _ _ (resolveImport importer specifier).toList
      rw [hshape]
      exact hstrips.cons (by decide)
    · rw [location_slash_join hproper, along_target_of_absolute _ _ habsolute, location, habsolute]

/-- Up out of the directory that all paths start from, with a backslash for a slash. -/
theorem climbingImport_walks :
    resolveImport "../src//lib/main" "..\\./../x.ts" = "../x" ∧
    (∃ parts, Proper parts ∧ Strips ".ts".toList (join parts) "../x".toList ∧
      location (join parts) = ⟨false, 1, ["x.ts".toList]⟩ ∧ UpsFirst parts) ∧
    ∀ other, resolveImport other "\\lib/../x.ts" = "/x" := by
  have hresult : resolveImport "../src//lib/main" "..\\./../x.ts" = "../x" := by decide +kernel
  have hfromTop : resolveImport "../src//lib/main" "\\lib/../x.ts" = "/x" := by decide +kernel
  obtain ⟨parts, hproper, hstrips, hleads, hups⟩ := (resolveImport_is_lexical_walk "../src//lib/main"
    "..\\./../x.ts" (by decide)).1 (by decide)
  obtain ⟨-, hanywhere, -⟩ := (resolveImport_is_lexical_walk "../src//lib/main" "\\lib/../x.ts"
    (by decide)).2 (by decide)
  rw [hresult] at hstrips
  refine ⟨hresult, ⟨parts, hproper, hstrips, ?_, hups (by decide)⟩, ?_⟩
  · rw [hleads]
    decide
  · intro other
    rw [hanywhere other, hfromTop]

/-- **Imports of a file that is named from the top lose the slash in front.** The import path leads
along the right names, but from where one stands. With the slash in front it would lead where the
importer's directory followed by the specifier leads. -/
theorem resolveImport_from_top (importer specifier : String)
    (habsolute : isAbsolute importer.toList = true)
    (hrelative : isAbsolute (forward specifier.toList) = false) :
    let result := (resolveImport importer specifier).toList
    let wanted := location (folder importer.toList ++ forward specifier.toList)
    wanted.fromTop = true ∧ isAbsolute result = false ∧
      ∃ parts, Proper parts ∧ Strips ".ts".toList (join parts) result ∧
        location (join parts) = { wanted with fromTop := false } ∧
        location ('/' :: join parts) = wanted := by
  intro result wanted
  have hproper := proper_target importer.toList (forward specifier.toList)
  have hstrips := strips_resolveImport importer hrelative
  have hleads : wanted = Location.along ⟨true, 0, []⟩
      (target importer.toList (forward specifier.toList)) := by
    rw [← habsolute]
    exact location_folder_append _ hrelative
  have htop : wanted = { wanted with fromTop := true } := by
    rw [hleads, ← Location.along_from]
  refine ⟨?_, hstrips.isAbsolute_eq_false (isAbsolute_join hproper), _, hproper, hstrips, ?_, ?_⟩
  · rw [htop]
  · rw [location_join hproper, hleads, ← Location.along_from]
  · rw [location_slash_join hproper, hleads]

/-- An import next to a file that is named from the top means a path that is not. -/
theorem importNextToTop_leaves_top :
    isAbsolute "/abs/main".toList = true ∧ isAbsolute (forward "./util".toList) = false ∧
      resolveImport "/abs/main" "./util" = "abs/util" ∧
      isAbsolute (resolveImport "/abs/main" "./util").toList = false ∧
      location "abs/util".toList ≠ location (folder "/abs/main".toList ++ forward "./util".toList) := by
  decide +kernel

/-- Above the top, where the walk goes up further than there are directories. -/
theorem climbingFromTop_leaves_top :
    isAbsolute "/src/./main".toList = true ∧ isAbsolute (forward "../..\\lib.ts".toList) = false ∧
      resolveImport "/src/./main" "../..\\lib.ts" = "../lib" ∧
      ∃ parts, Proper parts ∧ Strips ".ts".toList (join parts) "../lib".toList ∧
        location (join parts) = ⟨false, 1, ["lib.ts".toList]⟩ ∧
        location ('/' :: join parts) = ⟨true, 1, ["lib.ts".toList]⟩ := by
  have hresult : resolveImport "/src/./main" "../..\\lib.ts" = "../lib" := by decide +kernel
  obtain ⟨-, -, parts, hproper, hstrips, hstands, hleads⟩ :=
    resolveImport_from_top "/src/./main" "../..\\lib.ts" (by decide) (by decide)
  rw [hresult] at hstrips
  refine ⟨by decide, by decide, hresult, parts, hproper, hstrips, ?_, ?_⟩
  · rw [hstands]
    decide
  · rw [hleads]
    decide

end Wasmline.Path
