/-!
# Paths of source files

A path is text with slashes between its segments; a backslash is read as a slash. Two functions make
paths comparable.

* `normalize` gives the path a file is known by: without its extension, or else without one final
  slash.
* `resolveImport` says which path an import specifier means. It walks from the importing file's
  directory, or from the top for a specifier that starts with a slash, one segment at a time: `.` and
  the empty segment stay, `..` goes up and any other segment goes down. Going up from a place that
  is not known by name is itself written `..`, so a relative path can lead out of the directory the
  whole program lies in.
-/

namespace Wasmline.Path

/-- A segment of a path: the text between two slashes. -/
abbrev Segment := List Char

/-- The path with every backslash read as a slash. -/
def forward (path : List Char) : List Char :=
  path.map fun c => if c = '\\' then '/' else c

/-- The text in front of `tail`, if the text ends in it. -/
def dropSuffix? (tail text : List Char) : Option (List Char) :=
  if tail.isSuffixOf text then some (text.take (text.length - tail.length)) else none

/-- A text ends in the suffix that `dropSuffix?` removed. -/
theorem dropSuffix?_eq_some {tail text front : List Char} (h : dropSuffix? tail text = some front) :
    text = front ++ tail := by
  unfold dropSuffix? at h
  split at h
  · rename_i hs
    obtain ⟨pre, rfl⟩ := List.isSuffixOf_iff_suffix.1 hs
    simp only [Option.some.injEq] at h
    simp [← h]
  · simp at h

/-- A suffix can be removed. -/
@[simp] theorem dropSuffix?_append (front tail : List Char) :
    dropSuffix? tail (front ++ tail) = some front := by
  have hs : tail.isSuffixOf (front ++ tail) = true :=
    List.isSuffixOf_iff_suffix.2 (List.suffix_append front tail)
  simp [dropSuffix?, hs]

/-- The path a file is known by: its extension is dropped, or else one final slash. -/
def normalize (path extension : String) : String :=
  let path := forward path.toList
  match dropSuffix? extension.toList path with
  | some front => String.ofList front
  | none => String.ofList ((dropSuffix? ['/'] path).getD path)

/-- The segments of a path, cut at every slash. There is always at least one. -/
def segments : List Char → List Segment
  | [] => [[]]
  | c :: s =>
    if c = '/' then [] :: segments s
    else
      match segments s with
      | [] => [[c]]
      | p :: ps => (c :: p) :: ps

/-- The segments joined by slashes. -/
def join (parts : List Segment) : List Char :=
  ['/'].intercalate parts

/-- A segment that stays where it is. -/
def stays (s : Segment) : Bool :=
  s.isEmpty || s == ['.']

/-- The segment that goes up. -/
def up : Segment := ['.', '.']

/-- One segment further along a walk. The segments walked so far stand innermost first. -/
def step (walked : List Segment) (s : Segment) : List Segment :=
  if stays s then walked
  else if s = up then
    match walked with
    | [] => [up]
    | inner :: outer => if inner = up then up :: walked else outer
  else s :: walked

/-- The segments of the directory a file is in. -/
def directory (path : List Char) : List Segment :=
  (segments path).dropLast.filter fun s => !stays s

/-- A specifier that starts from the top. -/
def isAbsolute (specifier : List Char) : Bool :=
  specifier.head? == some '/'

/-- The segments that a specifier leads to from the importing file. -/
def target (importer specifier : List Char) : List Segment :=
  let start := if isAbsolute specifier then [] else (directory importer).reverse
  ((segments specifier).foldl step start).reverse

/-- The extension that source files have. -/
def sourceExtension : String := ".ts"

/-- The path that an import specifier means in the importing file, without its extension. -/
def resolveImport (importer specifier : String) : String :=
  let specifier := forward specifier.toList
  let path := join (target importer.toList specifier)
  let path := (dropSuffix? sourceExtension.toList path).getD path
  String.ofList (if isAbsolute specifier then '/' :: path else path)

end Wasmline.Path
