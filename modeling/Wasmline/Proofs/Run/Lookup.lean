import Wasmline.Proofs.Run.Discovery
import Wasmline.Proofs.Source.Location

/-!
# Under which names files are looked for

A path is looked for under two names, as a file and as the index of a directory of that name
(`loads_resolve`). Both are made from the normalized path, which is what is left of the path when its
extension is taken off, or else one slash (`normalize_cases`).

One ending is taken off at a time. A canonical path may therefore end so once more, as `a.ts` does for
the file `a.ts.ts`, and then it does not lead to the file that it is the path of.
`resolve_canonical_iff` says that this is the only way in which that happens.

Behind the normalized path comes a slash in the name of the index. An import of the directory that all
relative paths start from has an empty path, and so its index is looked for from the top.
`relative_import_stays_relative_iff` says for which imports that happens.
-/

namespace Wasmline

namespace Path

/-! ### Normalized paths -/

theorem forward_of_notMem {path : List Char} (hplain : '\\' ∉ path) : forward path = path := by
  refine (List.map_congr_left ?_).trans (List.map_id path)
  intro c hc
  have hother : c ≠ '\\' := fun hsame => hplain (hsame ▸ hc)
  exact if_neg hother

theorem backslash_notMem_forward (path : List Char) : '\\' ∉ forward path := by
  intro hmem
  obtain ⟨c, -, hsame⟩ := List.mem_map.mp hmem
  split at hsame
  · exact absurd hsame (by decide)
  · contradiction

/-- Normalizing takes the extension off, or else one slash if there is one. -/
theorem normalize_cases (path extension : String) :
    forward path.toList = (normalize path extension).toList ++ extension.toList ∨
      ¬ extension.toList <:+ forward path.toList ∧
        Strips ['/'] (forward path.toList) (normalize path extension).toList := by
  rcases hdropped : dropSuffix? extension.toList (forward path.toList) with _ | front
  · refine .inr ⟨?_, ?_⟩
    · rintro ⟨front, hsame⟩
      rw [← hsame, dropSuffix?_append] at hdropped
      exact Option.some_ne_none _ hdropped
    · simp only [normalize, hdropped, String.toList_ofList]
      exact strips_dropSuffix? ['/'] (forward path.toList)
  · simp only [normalize, hdropped, String.toList_ofList]
    exact .inl (dropSuffix?_eq_some hdropped)

theorem normalize_prefix_forward (path extension : String) :
    (normalize path extension).toList <+: forward path.toList := by
  rcases normalize_cases path extension with hsame | ⟨-, hsame | ⟨hsame, -⟩⟩
  · exact ⟨_, hsame.symm⟩
  · exact ⟨_, hsame.symm⟩
  · exact ⟨[], by rw [List.append_nil, hsame]⟩

theorem backslash_notMem_normalize (path extension : String) :
    '\\' ∉ (normalize path extension).toList := fun hmem =>
  backslash_notMem_forward _ ((normalize_prefix_forward path extension).subset hmem)

/-- A path is known by itself if it ends neither in the extension nor in a slash. -/
theorem normalize_eq_self_iff {path extension : String} (hplain : '\\' ∉ path.toList)
    (hne : extension ≠ "") :
    normalize path extension = path ↔
      ¬ extension.toList <:+ path.toList ∧ ¬ ['/'] <:+ path.toList := by
  have htaken := normalize_cases path extension
  rw [forward_of_notMem hplain] at htaken
  rw [← String.toList_inj]
  generalize (normalize path extension).toList = known at htaken ⊢
  rcases htaken with hsame | ⟨hother, hsame | ⟨hsame, hmore⟩⟩
  · have hends : extension.toList <:+ path.toList := ⟨known, hsame.symm⟩
    refine iff_of_false ?_ fun h => h.1 hends
    intro hwhole
    rw [hwhole, List.self_eq_append_right] at hsame
    exact hne (by simpa using hsame)
  · have hends : ['/'] <:+ path.toList := ⟨known, hsame.symm⟩
    refine iff_of_false ?_ fun h => h.2 hends
    intro hwhole
    rw [hwhole, List.self_eq_append_right] at hsame
    exact List.cons_ne_nil _ _ hsame
  · exact iff_of_true hsame.symm ⟨hother, hmore⟩

/-- The index of what a path is normalized to is the path itself only if the index is what was taken
off it. -/
theorem normalize_append_index_iff {path extension : String} (hplain : '\\' ∉ path.toList) :
    normalize path extension ++ "/index" = path ↔
      extension = "/index" ∧ extension.toList <:+ path.toList := by
  have htaken := normalize_cases path extension
  rw [forward_of_notMem hplain] at htaken
  rw [← String.toList_inj, String.toList_append, ← String.toList_inj]
  generalize (normalize path extension).toList = known at htaken ⊢
  rcases htaken with hsame | ⟨hother, hsame⟩
  · have hends : extension.toList <:+ path.toList := ⟨known, hsame.symm⟩
    rw [and_iff_left hends, hsame, List.append_cancel_left_eq, eq_comm]
  · refine iff_of_false ?_ fun h => hother h.2
    intro hwhole
    rcases hsame with hsame | ⟨hsame, -⟩
    · rw [hsame, List.append_cancel_left_eq] at hwhole
      exact absurd hwhole (by decide)
    · rw [hsame, List.append_right_eq_self] at hwhole
      exact absurd hwhole (by decide)

/-! ### Normalized paths that start from the top -/

theorem isAbsolute_append {front : List Char} (hne : front ≠ []) (back : List Char) :
    isAbsolute (front ++ back) = isAbsolute front := by
  obtain ⟨c, rest, rfl⟩ := List.exists_cons_of_ne_nil hne
  rfl

theorem isAbsolute_forward (path : List Char) :
    isAbsolute (forward path) = true ↔ isAbsolute path = true ∨ path.head? = some '\\' := by
  cases path with
  | nil => simp [forward, isAbsolute]
  | cons c path =>
      by_cases hback : c = '\\' <;> simp [forward, isAbsolute, hback]

section Relative

variable {path : String}

/-- A path that is read as a text without slashes is that text. -/
theorem eq_of_forward_eq {path text : List Char} (hfree : '/' ∉ text) (h : forward path = text) :
    path = text := by
  rw [← h]
  refine (forward_of_notMem ?_).symm
  intro hmem
  have hslash : '/' ∈ forward path := List.mem_map.mpr ⟨'\\', hmem, rfl⟩
  exact hfree (h ▸ hslash)

theorem normalize_eq_empty_iff (hrelative : isAbsolute path.toList = false) :
    normalize path ".ts" = "" ↔ path = "" ∨ path = ".ts" ∨ path = "\\" := by
  constructor
  · intro hempty
    have htaken := normalize_cases path ".ts"
    rw [hempty, String.toList_empty, List.nil_append] at htaken
    simp only [← String.toList_inj]
    rcases htaken with hsame | ⟨-, hsame | ⟨hsame, -⟩⟩
    · exact .inr (.inl (eq_of_forward_eq (by decide) hsame))
    · obtain ⟨c, hsingle, hslash⟩ := List.map_eq_singleton_iff.mp hsame
      have hback : c = '\\' := by
        by_contra hother
        rw [if_neg hother] at hslash
        rw [hsingle, hslash] at hrelative
        exact absurd hrelative (by decide)
      exact .inr (.inr (by rw [hsingle, hback]; rfl))
    · exact .inl (eq_of_forward_eq (by simp) hsame)
  · rintro (rfl | rfl | rfl) <;> decide +kernel

theorem isAbsolute_normalize_iff (hrelative : isAbsolute path.toList = false) :
    isAbsolute (normalize path ".ts").toList = true ↔
      path.toList.head? = some '\\' ∧ path ≠ "\\" := by
  by_cases hempty : normalize path ".ts" = ""
  · rw [hempty]
    refine iff_of_false (by decide) ?_
    rintro ⟨hback, hne⟩
    rcases (normalize_eq_empty_iff hrelative).mp hempty with rfl | rfl | hsame
    · exact absurd hback (by decide)
    · exact absurd hback (by decide)
    · exact hne hsame
  · have hne : (normalize path ".ts").toList ≠ [] := by simpa using hempty
    have hother : path ≠ "\\" := by
      rintro rfl
      exact hempty (by decide +kernel)
    obtain ⟨rest, hsplit⟩ := normalize_prefix_forward path ".ts"
    rw [← isAbsolute_append hne rest, hsplit, isAbsolute_forward, hrelative, and_iff_left hother]
    simp

end Relative

/-! ### Imports of the directory that all paths start from -/

/-- The import means the directory that all relative paths start from, or a file there with nothing in
front of its extension, and there is no `..` in the importer's directory. -/
def MeansStart (importer specifier : String) : Prop :=
  up ∉ (folder importer.toList).splitOn '/' ∧
    location (folder importer.toList ++ forward specifier.toList) ∈
      [⟨false, 0, []⟩, ⟨false, 0, [".ts".toList]⟩, ⟨false, 0, [".ts.ts".toList]⟩]

instance (importer specifier : String) : Decidable (MeansStart importer specifier) :=
  inferInstanceAs (Decidable (_ ∧ _))

section Import

variable {importer specifier : String}

/-- These are the imports whose path is empty, or becomes so when it is normalized. -/
theorem meansStart_iff (hfromHere : isAbsolute importer.toList = false)
    (hrelative : isAbsolute (forward specifier.toList) = false) :
    MeansStart importer specifier ↔
      resolveImport importer specifier = "" ∨ resolveImport importer specifier = ".ts" := by
  have hproper := proper_target importer.toList (forward specifier.toList)
  have hstrips := strips_resolveImport importer hrelative
  have hspelled : ∀ {names : List Segment}, (∀ s ∈ names, stays s = false) → up ∉ names →
      (target importer.toList (forward specifier.toList) = names ↔
        up ∉ (folder importer.toList).splitOn '/' ∧
          location (folder importer.toList ++ forward specifier.toList) = ⟨false, 0, names⟩) := by
    intro names hmoving hplain
    rw [target_eq_names_iff hrelative hmoving hplain, hfromHere]
  simp only [← String.toList_inj, hstrips.eq_iff]
  generalize target importer.toList (forward specifier.toList) = parts at hproper hspelled ⊢
  calc MeansStart importer specifier
    _ ↔ parts = [] ∨ parts = [".ts".toList] ∨ parts = [".ts.ts".toList] := by
        rw [hspelled (by decide) (by decide), hspelled (by decide) (by decide),
          hspelled (by decide) (by decide), ← and_or_left, ← and_or_left]
        simp [MeansStart]
    _ ↔ join parts = [] ∨ join parts = ".ts".toList ∨ join parts = ".ts.ts".toList := by
        rw [join_eq_nil_iff hproper, join_eq_iff hproper (by decide) (by decide),
          join_eq_iff hproper (by decide) (by decide)]
    _ ↔ Strips ".ts".toList (join parts) "".toList ∨
          Strips ".ts".toList (join parts) ".ts".toList := by
        generalize join parts = text
        constructor
        · rintro (rfl | rfl | rfl)
          · exact .inl (.inr ⟨rfl, by decide⟩)
          · exact .inl (.inl rfl)
          · exact .inr (.inl rfl)
        · rintro ((rfl | ⟨rfl, -⟩) | (rfl | ⟨rfl, hends⟩))
          · exact .inr (.inl rfl)
          · exact .inl rfl
          · exact .inr (.inr rfl)
          · exact absurd (List.suffix_refl _) hends

theorem backslash_notMem_resolveImport (hplain : '\\' ∉ importer.toList)
    (hrelative : isAbsolute (forward specifier.toList) = false) :
    '\\' ∉ (resolveImport importer specifier).toList := by
  intro hmem
  have hinJoin : '\\' ∈ join (target importer.toList (forward specifier.toList)) := by
    rcases strips_resolveImport importer hrelative with hsame | ⟨hsame, -⟩
    · rw [hsame]
      exact List.mem_append_left _ hmem
    · rwa [hsame]
  rcases mem_join hinJoin with hslash | ⟨s, hs, hmem⟩
  · exact absurd hslash (by decide)
  · rcases mem_target hs with hinDirectory | ⟨hinSpecifier, -⟩
    · exact hplain ((of_mem_segments (mem_segments_of_mem_directory hinDirectory)).2 hmem)
    · exact backslash_notMem_forward _ ((of_mem_segments hinSpecifier).2 hmem)

theorem not_suffix_of_up {text tail : List Char} (hdots : up <:+ text) (hne : tail ≠ [])
    (hother : tail.getLast? ≠ some '.') : ¬ tail <:+ text := by
  rintro ⟨rest, hsame⟩
  apply hother
  obtain ⟨front, rfl⟩ := hdots
  rw [← List.getLast?_append_of_ne_nil rest hne, hsame]
  simp [up]

/-- An import that leads to no name, and has a `..` in the importer's directory, ends in `..`. -/
theorem up_suffix_join_target (hrelative : isAbsolute (forward specifier.toList) = false)
    (hhere : (location (folder importer.toList ++ forward specifier.toList)).names = [])
    (hbehind : up ∈ (folder importer.toList).splitOn '/') :
    up <:+ join (target importer.toList (forward specifier.toList)) := by
  have hkept := up_mem_target _ hrelative (up_mem_directory_iff.mpr hbehind)
  have hmoving := (proper_target importer.toList (forward specifier.toList)).moving
  rw [location_folder_append _ hrelative] at hhere
  generalize target importer.toList (forward specifier.toList) = parts at hkept hmoving hhere ⊢
  obtain ⟨front, last, rfl⟩ := (List.eq_nil_or_concat parts).resolve_left (List.ne_nil_of_mem hkept)
  rw [List.concat_eq_append] at hmoving hhere ⊢
  -- A name at the end would be where the import leads.
  have hupward : last = up := by
    by_contra hname
    have hmoves := hmoving last (by simp)
    rw [Location.along_concat, Location.advance_of_name _ hmoves hname] at hhere
    simp at hhere
  subst hupward
  exact suffix_join_concat front up

/-- Such an import is known by the whole path that it leads along. -/
theorem normalize_resolveImport_of_up (hplain : '\\' ∉ importer.toList)
    (hrelative : isAbsolute (forward specifier.toList) = false)
    (hhere : (location (folder importer.toList ++ forward specifier.toList)).names = [])
    (hbehind : up ∈ (folder importer.toList).splitOn '/') :
    (resolveImport importer specifier).toList =
        join (target importer.toList (forward specifier.toList)) ∧
      normalize (resolveImport importer specifier) ".ts" = resolveImport importer specifier := by
  have hdots := up_suffix_join_target hrelative hhere hbehind
  have hwhole : (resolveImport importer specifier).toList =
      join (target importer.toList (forward specifier.toList)) := by
    rcases strips_resolveImport importer hrelative with hsame | ⟨hsame, -⟩
    · exact absurd ⟨_, hsame.symm⟩ (not_suffix_of_up hdots (by decide) (by decide))
    · exact hsame.symm
  have hplain := backslash_notMem_resolveImport hplain hrelative
  refine ⟨hwhole, (normalize_eq_self_iff hplain (by decide)).mpr ?_⟩
  rw [hwhole]
  exact ⟨not_suffix_of_up hdots (by decide) (by decide), not_suffix_of_up hdots (by decide) (by decide)⟩

/-- The index of such an import is looked for where all paths start. -/
theorem location_index_of_up (hplain : '\\' ∉ importer.toList)
    (hfromHere : isAbsolute importer.toList = false)
    (hrelative : isAbsolute (forward specifier.toList) = false)
    (hhere : location (folder importer.toList ++ forward specifier.toList) = ⟨false, 0, []⟩)
    (hbehind : up ∈ (folder importer.toList).splitOn '/') :
    location (normalize (resolveImport importer specifier) ".ts" ++ "/index" ++ ".ts").toList =
      ⟨false, 0, ["index.ts".toList]⟩ := by
  obtain ⟨hwhole, hsame⟩ := normalize_resolveImport_of_up hplain hrelative (by rw [hhere]) hbehind
  have hproper := proper_target importer.toList (forward specifier.toList)
  have hne : join (target importer.toList (forward specifier.toList)) ≠ [] := by
    rw [Ne, join_eq_nil_iff hproper]
    exact List.ne_nil_of_mem (up_mem_target _ hrelative (up_mem_directory_iff.mpr hbehind))
  have htext : (normalize (resolveImport importer specifier) ".ts" ++ "/index" ++ ".ts").toList =
      join (target importer.toList (forward specifier.toList)) ++ '/' :: "index.ts".toList := by
    rw [hsame, String.toList_append, String.toList_append, hwhole, List.append_assoc]
    rfl
  rw [htext, location_append_slash hne, location_join hproper, ← hfromHere,
    ← location_folder_append _ hrelative, hhere, hfromHere]
  decide

end Import

end Path

/-! ### Canonical paths -/

section Canonical

variable {loader : Loader} {extension path : String}

/-- A path is resolved to the file it leads to. -/
theorem resolve_eq_ok_iff {origin : Origin} {file : SourceFile} :
    (resolve loader extension path origin).result = .ok file ↔
      locate loader extension path = some (file.path, file.text) ∧ origin = file.origin := by
  obtain ⟨path', text', origin'⟩ := file
  rw [result_resolve]
  rcases locate loader extension path with _ | ⟨known, text⟩
  · simp
  · simp [and_assoc]

theorem backslash_notMem_of_locate {known text : String}
    (hfound : locate loader extension path = some (known, text)) : '\\' ∉ known.toList := by
  obtain ⟨tried, hmem, hread⟩ := List.exists_of_findSome?_eq_some hfound
  obtain ⟨_, -, hsame⟩ := Option.map_eq_some_iff.mp hread
  obtain ⟨rfl, -⟩ := Prod.mk.inj hsame
  have hplain := Path.backslash_notMem_normalize path extension
  rcases List.mem_pair.mp hmem with rfl | rfl
  · exact hplain
  · simpa using hplain

/-- A file that is known by a path is found under that path again if the path is normalized, or if it
is the index of what it is normalized to and no file is there. -/
theorem locate_eq_self_iff {known text : String}
    (hheld : (loader (known ++ extension)).text? = some text) :
    locate loader extension known = some (known, text) ↔
      Path.normalize known extension = known ∨
        Path.normalize known extension ++ "/index" = known ∧
          (loader (Path.normalize known extension ++ extension)).text? = none := by
  rw [locate_eq]
  rcases hdirect : (loader (Path.normalize known extension ++ extension)).text? with _ | other
  · have hunknown : Path.normalize known extension ≠ known := by
      intro hsame
      rw [hsame, hheld] at hdirect
      exact Option.some_ne_none _ hdirect
    simp only [hunknown, false_or, and_true]
    constructor
    · intro hfound
      obtain ⟨_, -, hsame⟩ := Option.map_eq_some_iff.mp hfound
      exact (Prod.mk.inj hsame).1
    · intro hsame
      rw [hsame, hheld, Option.map_some]
  · simp only [Option.some.injEq, Prod.mk.injEq, reduceCtorEq, and_false, or_false]
    refine and_iff_left_of_imp ?_
    intro hsame
    rw [hsame, hheld] at hdirect
    exact (Option.some.inj hdirect).symm

/-- **Where a canonical path leads.** A file that was found is found again under its canonical path, with
the same text, exactly if that path ends neither in the extension nor in a slash. (The extension
`/index` is apart: what is taken off the path is then put behind it again, as long as the path itself
is not the name of a file.) -/
theorem resolve_canonical_iff (loader : Loader) (extension path : String) (hne : extension ≠ "")
    (origin again : Origin) {file : SourceFile}
    (h : (resolve loader extension path origin).result = .ok file) :
    (resolve loader extension file.path again).result = .ok ⟨file.path, file.text, again⟩ ↔
      (¬ extension.toList <:+ file.path.toList ∧ ¬ ['/'] <:+ file.path.toList) ∨
      (extension = "/index" ∧ extension.toList <:+ file.path.toList ∧
        (loader file.path).text? = none) := by
  obtain ⟨hfound, -⟩ := resolve_eq_ok_iff.mp h
  have hplain := backslash_notMem_of_locate hfound
  rw [resolve_eq_ok_iff, and_iff_left rfl, locate_eq_self_iff (text?_of_locate hfound),
    Path.normalize_eq_self_iff hplain hne, ← and_assoc, ← Path.normalize_append_index_iff hplain]
  refine or_congr_right (and_congr_right ?_)
  intro hsame
  obtain ⟨rfl, -⟩ := (Path.normalize_append_index_iff hplain).mp hsame
  rw [hsame]

end Canonical

/-- A file whose name has the extension twice. -/
def doubledExtension : Loader :=
  .ofFiles [("a.ts.ts", "// a")]

/-- It is found under its name, and not under the path that it is known by. -/
theorem doubledExtension_lost :
    (resolve doubledExtension ".ts" "a.ts.ts" .imported).result = .ok ⟨"a.ts", "// a", .imported⟩ ∧
      (resolve doubledExtension ".ts" "a.ts" .imported).result =
        .error (.failure (.fileNotFound "a.ts" .imported)) :=
  ⟨rfl, rfl⟩

/-- A directory with an index. -/
def indexedDirectory : Loader :=
  .ofFiles [("src/lib/index.ts", "// lib")]

/-- The index is found by way of the directory, and again under its own path. -/
theorem indexedDirectory_found_again :
    (resolve indexedDirectory ".ts" "src\\lib/" .entry).result =
        .ok ⟨"src/lib/index", "// lib", .entry⟩ ∧
      (resolve indexedDirectory ".ts" "src/lib/index" .imported).result =
        .ok ⟨"src/lib/index", "// lib", .imported⟩ := by
  have hfound : (resolve indexedDirectory ".ts" "src\\lib/" .entry).result =
      .ok ⟨"src/lib/index", "// lib", .entry⟩ := rfl
  refine ⟨hfound, ?_⟩
  apply (resolve_canonical_iff indexedDirectory ".ts" "src\\lib/" (by decide) .entry .imported
    hfound).mpr
  exact .inl (by decide)

/-! ### Names that are asked for -/

theorem loads_tryFile (loader : Loader) (file : String) :
    (tryFile loader file).trace Event.load? = [file] := by
  unfold tryFile
  cases loader file <;> rfl

/-- A path is looked for as a file, and as the index of a directory if there is no such file. -/
theorem loads_resolve (loader : Loader) (extension path : String) (origin : Origin) :
    (resolve loader extension path origin).trace Event.load? =
      (Path.normalize path extension ++ extension) ::
        if (loader (Path.normalize path extension ++ extension)).text?.isSome then []
        else [Path.normalize path extension ++ "/index" ++ extension] := by
  unfold resolve
  rw [Work.trace_bind_of_ok _ (result_tryFile _ _), loads_tryFile]
  rcases (loader (Path.normalize path extension ++ extension)).text? with _ | text
  · rw [Work.trace_bind_of_ok _ (result_tryFile _ _), loads_tryFile]
    rcases (loader (Path.normalize path extension ++ "/index" ++ extension)).text? with _ | text
    · rfl
    · rfl
  · rfl

section Import

open Wasmline.Path

/-- The names that a path is looked for under start from the top only if the normalized path does, or if
it is empty, so that the name of the index is a slash and what follows. -/
theorem loads_relative_iff (loader : Loader) (path : String) (origin : Origin) :
    (∀ name ∈ (resolve loader ".ts" path origin).trace Event.load?,
        isAbsolute name.toList = false) ↔
      isAbsolute (normalize path ".ts").toList = false ∧
        (normalize path ".ts" = "" → (loader ".ts").text?.isSome) := by
  rw [loads_resolve, List.forall_mem_cons]
  by_cases hempty : normalize path ".ts" = ""
  · have hdirect : "" ++ ".ts" = ".ts" := rfl
    rw [hempty, hdirect]
    by_cases hthere : (loader ".ts").text?.isSome <;> simp [hthere, isAbsolute]
  · have hne : (normalize path ".ts").toList ≠ [] := by simpa using hempty
    simp only [String.append_assoc, String.toList_append, isAbsolute_append hne, hempty]
    split <;> simp [isAbsolute_append hne]

/-- **Where relative imports are looked for.** No name that is asked for an import starts from the top,
unless the import path itself starts with a backslash, or the import means the directory that all
relative paths start from, and no file is called by the extension alone. The first is only so if the
importer's path has a backslash in it. Otherwise, of the imports that lead to that directory, those look
for its index there which come to it by a `..` in the importer's directory. -/
theorem relative_import_stays_relative_iff (loader : Loader) (importer specifier : String)
    (origin : Origin) (hfromHere : isAbsolute (forward importer.toList) = false)
    (hrelative : isAbsolute (forward specifier.toList) = false) :
    let path := resolveImport importer specifier
    let asked := (resolve loader ".ts" path origin).trace Event.load?
    ((∀ name ∈ asked, isAbsolute name.toList = false) ↔
      (path.toList.head? = some '\\' → path = "\\") ∧
        (MeansStart importer specifier ∨ path = "\\" → (loader ".ts").text?.isSome)) ∧
    ('\\' ∉ importer.toList →
      path.toList.head? ≠ some '\\' ∧
        (location (folder importer.toList ++ forward specifier.toList) = ⟨false, 0, []⟩ →
          (loader (normalize path ".ts" ++ ".ts")).text? = none →
          ((∃ name ∈ asked, location name.toList = ⟨false, 0, ["index.ts".toList]⟩) ↔
            up ∈ (folder importer.toList).splitOn '/'))) := by
  intro path asked
  have hfromHere' : isAbsolute importer.toList = false := by
    rw [← Bool.not_eq_true, isAbsolute_forward] at hfromHere
    simpa using (not_or.mp hfromHere).1
  have hproper := proper_target importer.toList (forward specifier.toList)
  have hrelativePath : isAbsolute path.toList = false :=
    (strips_resolveImport importer hrelative).isAbsolute_eq_false (isAbsolute_join hproper)
  refine ⟨?_, fun hplain => ⟨?_, fun hhere hmissing => ⟨?_, ?_⟩⟩⟩
  · rw [loads_relative_iff, ← Bool.not_eq_true, isAbsolute_normalize_iff hrelativePath,
      normalize_eq_empty_iff hrelativePath, meansStart_iff hfromHere' hrelative, not_and_not_right,
      or_assoc]
  · intro hback
    exact backslash_notMem_resolveImport hplain hrelative (List.mem_of_head? hback)
  · rintro ⟨name, hmem, hleads⟩
    by_contra hfree
    have hstart : MeansStart importer specifier := ⟨hfree, by simp [hhere]⟩
    have hempty : normalize path ".ts" = "" := by
      rw [normalize_eq_empty_iff hrelativePath, ← or_assoc]
      exact .inl ((meansStart_iff hfromHere' hrelative).mp hstart)
    have hnames : asked = [".ts", "/index.ts"] := by
      show (resolve loader ".ts" path origin).trace Event.load? = _
      rw [loads_resolve, hmissing, hempty]
      rfl
    rw [hnames] at hmem
    rcases List.mem_pair.mp hmem with rfl | rfl
    · exact absurd hleads (by decide)
    · exact absurd hleads (by decide)
  · intro hbehind
    refine ⟨_, ?_, location_index_of_up hplain hfromHere' hrelative hhere hbehind⟩
    show _ ∈ (resolve loader ".ts" path origin).trace Event.load?
    rw [loads_resolve, hmissing]
    simp [path]

/-- A file in a directory that is imported from below. -/
def importedFromBelow : Loader :=
  .ofFiles [("src/main.ts", "import \"..\";\nexport function main(): i32 { return one(); }\n"),
    ("index.ts", "export function one(): i32 { return 1; }\n")]

/-- The index is there, but it is looked for from the top. -/
theorem importedFromBelow_asked_from_top :
    isAbsolute (forward "src/main".toList) = false ∧ isAbsolute (forward "..".toList) = false ∧
      location (folder "src/main".toList ++ forward "..".toList) = ⟨false, 0, []⟩ ∧
      (resolve importedFromBelow ".ts" (resolveImport "src/main" "..") .imported).trace Event.load? =
        [".ts", "/index.ts"] ∧
      isAbsolute "/index.ts".toList = true := by
  decide +kernel

/-- From a directory that is named in a roundabout way, the index is looked for where it is. -/
theorem roundaboutImport_asked_relative :
    (∀ name ∈ (resolve importedFromBelow ".ts" (resolveImport "a/../src/main" "..") .imported).trace
        Event.load?, isAbsolute name.toList = false) ∧
      ∃ name ∈ (resolve importedFromBelow ".ts" (resolveImport "a/../src/main" "..") .imported).trace
        Event.load?, location name.toList = ⟨false, 0, ["index.ts".toList]⟩ := by
  obtain ⟨hrelative, hindex⟩ := relative_import_stays_relative_iff importedFromBelow "a/../src/main"
    ".." .imported (by decide) (by decide)
  refine ⟨hrelative.mpr ⟨by decide +kernel, by decide +kernel⟩, ?_⟩
  exact ((hindex (by decide)).2 (by decide +kernel) (by decide +kernel)).mpr (by decide)

end Import

end Wasmline
