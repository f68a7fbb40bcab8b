import Wasmline.Proofs.Program.Relocation
import Wasmline.Proofs.Source.Worklist

/-!
# A path with a dot in front of it

`./a/b` and `a/b` mean the same place. A path keeps the dot when it is normalized
(`normalize_dotted`), while the directory of a file, from which its imports are resolved, is the same
with it and without (`directory_dotted`). So a text that is known by a path with a dot has the imports
and the declarations that it has without, and as many reports of each severity; only the names of
files in messages show the dot.
-/

namespace Wasmline

namespace Path

/-- The path with a dot in front of it. -/
def dotted (path : String) : String :=
  "./" ++ path

/-- A path that does not start from the top, and is not empty. -/
def IsRelative (path : String) : Prop :=
  path ≠ "" ∧ isAbsolute path.toList = false

instance (path : String) : Decidable (IsRelative path) :=
  inferInstanceAs (Decidable (_ ∧ _))

@[simp] theorem toList_dotted (path : String) :
    (dotted path).toList = '.' :: '/' :: path.toList := by
  rw [dotted, String.toList_append]
  rfl

theorem dotted_append (path tail : String) : dotted path ++ tail = dotted (path ++ tail) :=
  String.append_assoc

theorem dotted_ne (path : String) : dotted path ≠ path := by
  intro hsame
  have hlengths := congrArg (fun s => s.toList.length) hsame
  simp only [toList_dotted, List.length_cons] at hlengths
  omega

theorem IsRelative.append {path : String} (h : IsRelative path) (tail : String) :
    IsRelative (path ++ tail) := by
  obtain ⟨hne, hrelative⟩ := h
  obtain ⟨c, rest, hsame⟩ := List.exists_cons_of_ne_nil (l := path.toList) (by simpa using hne)
  unfold IsRelative isAbsolute at *
  simp_all

/-! ### Normalizing -/

/-- What stands in front of a path is kept when its end is dropped, unless the end reaches into it. -/
theorem dropSuffix?_append_left {front tail path : List Char}
    (h : tail <:+ front ++ path → tail <:+ path) :
    dropSuffix? tail (front ++ path) = (dropSuffix? tail path).map (front ++ ·) := by
  cases hdropped : dropSuffix? tail path with
  | some f =>
      rw [dropSuffix?_eq_some hdropped, ← List.append_assoc, dropSuffix?_append, Option.map_some]
  | none =>
      by_contra hother
      obtain ⟨f, hother⟩ := Option.ne_none_iff_exists'.mp hother
      obtain ⟨g, rfl⟩ := h ⟨f, (dropSuffix?_eq_some hother).symm⟩
      rw [dropSuffix?_append] at hdropped
      exact nomatch hdropped

theorem suffix_of_suffix_dotted {tail path : List Char} (h : tail <:+ ['.', '/'] ++ path)
    (hshort : tail ≠ '/' :: path) (hshorter : tail ≠ '.' :: '/' :: path) : tail <:+ path :=
  ((List.suffix_cons_iff.mp h).resolve_left hshorter |> List.suffix_cons_iff.mp).resolve_left hshort

theorem ofList_dotted (path : List Char) :
    String.ofList (['.', '/'] ++ path) = dotted (String.ofList path) := by
  rw [← String.toList_inj]
  simp

/-- A path keeps the dot when it is normalized. -/
theorem normalize_dotted {path extension : String} (h : '/' ∉ extension.toList)
    (hrelative : IsRelative (normalize path extension)) :
    normalize (dotted path) extension = dotted (normalize path extension) := by
  have hforwards : forward (dotted path).toList = ['.', '/'] ++ forward path.toList := by
    simp [forward]
  have hext : dropSuffix? extension.toList (['.', '/'] ++ forward path.toList) =
      (dropSuffix? extension.toList (forward path.toList)).map (['.', '/'] ++ ·) := by
    refine dropSuffix?_append_left fun hends => suffix_of_suffix_dotted hends ?_ ?_
    · intro hsame
      simp [hsame] at h
    · intro hsame
      simp [hsame] at h
  have hne := hrelative.1
  unfold normalize at hne ⊢
  simp only [hforwards, hext] at hne ⊢
  cases hdropped : dropSuffix? extension.toList (forward path.toList) with
  | some front => exact ofList_dotted front
  | none =>
      simp only [hdropped, Option.map_none] at hne ⊢
      have hslash : dropSuffix? ['/'] (['.', '/'] ++ forward path.toList) =
          (dropSuffix? ['/'] (forward path.toList)).map (['.', '/'] ++ ·) := by
        refine dropSuffix?_append_left fun hends => suffix_of_suffix_dotted hends ?_ (by simp)
        intro hsame
        rw [← (List.cons.inj hsame).2] at hne
        exact hne rfl
      rw [hslash, ← ofList_dotted]
      cases dropSuffix? ['/'] (forward path.toList) <;> rfl

/-! ### Resolving imports -/

theorem segments_ne_nil : (path : List Char) → segments path ≠ []
  | [] => nofun
  | c :: s => by
      unfold segments
      split
      · nofun
      · split <;> nofun

theorem directory_dotted (path : List Char) : directory ('.' :: '/' :: path) = directory path := by
  have hsplit : segments ('.' :: '/' :: path) = ['.'] :: segments path := rfl
  rw [directory, hsplit, List.dropLast_cons_of_ne_nil (segments_ne_nil path), directory]
  rfl

theorem resolveImport_dotted (importer specifier : String) :
    resolveImport (dotted importer) specifier = resolveImport importer specifier := by
  unfold resolveImport target
  rw [toList_dotted, directory_dotted]

end Path

/-! ### Reading -/

namespace ParsedFile

theorem imports_dotted (path text : String) :
    (parse (Path.dotted path) text).imports = (parse path text).imports := by
  show (NumberedLine.all text).filterMap _ = (NumberedLine.all text).filterMap _
  refine congrFun (congrArg _ (funext fun l => ?_)) _
  simp only [NumberedLine.import?, Path.resolveImport_dotted]

theorem content_dotted (path text : String) :
    (parse (Path.dotted path) text).content = (parse path text).content := by
  show ((NumberedLine.all text).filterMap _).map _ = ((NumberedLine.all text).filterMap _).map _
  rw [List.map_filterMap, List.map_filterMap]
  refine congrFun (congrArg _ (funext fun l => ?_)) _
  unfold NumberedLine.function?
  split <;> rfl

/-- What is wrong with a text is as grave. -/
theorem severity_diagnostics_dotted (path text : String) :
    (parse (Path.dotted path) text).diagnostics.map Diagnostic.severity =
      (parse path text).diagnostics.map Diagnostic.severity := by
  let found (path : String) :=
    (NumberedLine.all text).filterMap (NumberedLine.diagnostic? (fileName path))
  have hdiagnostics : ∀ path, (parse path text).diagnostics =
      if (parse path text).imports.isEmpty && (parse path text).functions.isEmpty &&
          (found path).isEmpty then
        [emptyReport (fileName path)]
      else found path := fun _ => rfl
  have hfunctions : (parse (Path.dotted path) text).functions.isEmpty =
      (parse path text).functions.isEmpty := by
    simpa [content] using congrArg List.isEmpty (content_dotted path text)
  have hgrave : (found (Path.dotted path)).map Diagnostic.severity =
      (found path).map Diagnostic.severity := by
    simp only [found, List.map_filterMap]
    refine congrFun (congrArg _ (funext fun l => ?_)) _
    unfold NumberedLine.diagnostic?
    split <;> rfl
  have hclean : (found (Path.dotted path)).isEmpty = (found path).isEmpty := by
    simpa using congrArg List.isEmpty hgrave
  rw [hdiagnostics, hdiagnostics, imports_dotted, hfunctions, hclean]
  split
  · rfl
  · exact hgrave

end ParsedFile

end Wasmline
