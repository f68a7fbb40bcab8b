import Wasmline.Source.Session
import Mathlib.Data.List.Induction
import Mathlib.Data.List.Nodup

/-!
# What a session keeps

Two things hold of a session whatever it is supplied with.

* The paths of its files are those that it was supplied with, each at its first place
  (`paths_supply`).
* A path that it has handed out is never handed out again. `Issued` says why: the paths handed out so
  far and those still pending are pairwise distinct and all of them have been noted as requested, so
  that no file that comes later can bring one of them back (`Issued.supply`, `Issued.nextImport`).
-/

namespace Wasmline

/-! ### Leaving out repeats -/

section Repeats

variable {α : Type} [DecidableEq α]

/-- A list that goes on with something known is the same once repeats are left out. -/
theorem eraseDups_concat (l : List α) (a : α) :
    (l ++ [a]).eraseDups = if a ∈ l then l.eraseDups else l.eraseDups ++ [a] := by
  rw [List.eraseDups_append]
  by_cases hknown : a ∈ l <;> simp [List.removeAll, List.eraseDups_cons, hknown]

theorem nodup_eraseDups (l : List α) : l.eraseDups.Nodup := by
  induction l using List.reverseRecOn with
  | nil => exact List.nodup_nil
  | append_singleton l a ih =>
      rw [eraseDups_concat]
      split
      · exact ih
      · rename_i hfresh
        refine ih.append (List.nodup_singleton a) (List.disjoint_singleton.mpr ?_)
        exact fun hknown => hfresh (List.mem_eraseDups.mp hknown)

/-- Leaving out repeats changes nothing exactly if there are none. -/
theorem eq_eraseDups_iff {l : List α} : l = l.eraseDups ↔ l.Nodup := by
  constructor
  · intro hsame
    rw [hsame]
    exact nodup_eraseDups l
  · induction l using List.reverseRecOn with
    | nil => exact fun _ => rfl
    | append_singleton l a ih =>
        intro hdistinct
        obtain ⟨hfront, -, hapart⟩ := List.nodup_append'.mp hdistinct
        rw [eraseDups_concat, if_neg (List.disjoint_singleton.mp hapart), ← ih hfront]

end Repeats

namespace Session

/-! ### New requests -/

theorem mem_newRequests {path : String} : {requested paths : List String} →
    (path ∈ newRequests requested paths ↔ path ∈ paths ∧ path ∉ requested)
  | _, [] => by simp [newRequests]
  | requested, first :: paths => by
      unfold newRequests
      split
      · rename_i hknown
        rw [mem_newRequests, List.mem_cons]
        constructor
        · rintro ⟨hmet, hfresh⟩
          exact ⟨.inr hmet, hfresh⟩
        · rintro ⟨rfl | hmet, hfresh⟩
          · exact absurd hknown hfresh
          · exact ⟨hmet, hfresh⟩
      · rename_i hunknown
        rw [List.mem_cons, mem_newRequests, List.mem_cons, List.mem_cons]
        constructor
        · rintro (rfl | ⟨hmet, hfresh⟩)
          · exact ⟨.inl rfl, hunknown⟩
          · exact ⟨.inr hmet, fun hknown => hfresh (.inr hknown)⟩
        · rintro ⟨rfl | hmet, hfresh⟩
          · exact .inl rfl
          · by_cases hsame : path = first
            · exact .inl hsame
            · exact .inr ⟨hmet, fun hknown => hknown.elim hsame hfresh⟩

theorem nodup_newRequests : (requested paths : List String) → (newRequests requested paths).Nodup
  | _, [] => List.nodup_nil
  | requested, first :: paths => by
      unfold newRequests
      split
      · exact nodup_newRequests requested paths
      · refine List.nodup_cons.mpr ⟨?_, nodup_newRequests _ paths⟩
        intro hagain
        exact (mem_newRequests.mp hagain).2 List.mem_cons_self

/-! ### Supplying a file -/

/-- What a file that was not read before adds. -/
theorem supply_of_notMem {s : Session} {file : SourceFile} (hfresh : file.path ∉ s.paths) :
    s.supply file =
      let parsed := ParsedFile.parse file.path file.text
      { files := s.files ++ [parsed]
        requested := (s.requestsOf parsed).reverse ++ file.path :: s.requested
        pending := s.pending ++ s.requestsOf parsed
        waiting := s.waiting ++ parsed.diagnostics } :=
  if_neg hfresh

theorem supply_of_mem {s : Session} {file : SourceFile} (hknown : file.path ∈ s.paths) :
    s.supply file = s :=
  if_pos hknown

/-- A session gains the path of a file, unless it has it already. -/
theorem paths_supply (s : Session) (file : SourceFile) :
    (s.supply file).paths = if file.path ∈ s.paths then s.paths else s.paths ++ [file.path] := by
  split
  · rename_i hknown
    rw [supply_of_mem hknown]
  · rename_i hfresh
    rw [supply_of_notMem hfresh]
    exact List.map_append

theorem paths_start (entry : SourceFile) : (start entry).paths = [entry.path] :=
  paths_supply empty entry

/-- The paths of a session follow those it was supplied with: each stands at its first place. -/
theorem paths_supply_eraseDups {s : Session} {supplied : List String}
    (h : s.paths = supplied.eraseDups) (file : SourceFile) :
    (s.supply file).paths = (supplied ++ [file.path]).eraseDups := by
  rw [paths_supply, h, eraseDups_concat]
  simp only [List.mem_eraseDups]

/-! ### Handing out imports -/

/-- The next import is the first that is pending. -/
theorem nextImport_eq_some_iff {s t : Session} {path : String} :
    s.nextImport = (some path, t) ↔
      ∃ rest, s.pending = path :: rest ∧ t = { s with pending := rest } := by
  unfold nextImport
  split
  · rename_i hdone
    simp [hdone]
  · rename_i first rest hpending
    simp only [hpending, Prod.mk.injEq, Option.some.injEq, List.cons.injEq]
    constructor
    · rintro ⟨rfl, rfl⟩
      exact ⟨rest, ⟨rfl, rfl⟩, rfl⟩
    · rintro ⟨_, ⟨rfl, rfl⟩, rfl⟩
      exact ⟨rfl, rfl⟩

/-- Handing out an import reads nothing. -/
theorem paths_nextImport {s t : Session} {path : String} (hnext : s.nextImport = (some path, t)) :
    t.paths = s.paths := by
  obtain ⟨rest, -, rfl⟩ := nextImport_eq_some_iff.mp hnext
  rfl

/-- A session that asks for nothing has nothing pending, and stays as it is. -/
theorem nextImport_eq_none_iff {s t : Session} :
    s.nextImport = (none, t) ↔ s.pending = [] ∧ t = s := by
  unfold nextImport
  split
  · rename_i hdone
    simp [hdone, eq_comm]
  · rename_i hpending
    simp [hpending]

/-- The paths that a session has handed out and those still pending are pairwise distinct, and all of
them are noted as requested. -/
structure Issued (s : Session) (handed : List String) : Prop where
  nodup : (handed ++ s.pending).Nodup
  requested : ∀ path ∈ handed ++ s.pending, path ∈ s.requested

namespace Issued

variable {s t : Session} {handed : List String}

/-- A session is begun with nothing handed out. -/
theorem empty : Issued Session.empty [] :=
  ⟨List.nodup_nil, by simp [Session.empty]⟩

/-- A supplied file only asks for paths that were not requested before. -/
theorem supply (h : Issued s handed) (file : SourceFile) : Issued (s.supply file) handed := by
  by_cases hknown : file.path ∈ s.paths
  · rw [supply_of_mem hknown]
    exact h
  · rw [supply_of_notMem hknown]
    have hfresh : ∀ path ∈ s.requestsOf (ParsedFile.parse file.path file.text),
        path ∉ s.requested := by
      intro path hnew hnoted
      exact (mem_newRequests.mp hnew).2 (List.mem_cons_of_mem _ hnoted)
    refine ⟨?_, ?_⟩
    · show (handed ++ (s.pending ++ _)).Nodup
      rw [← List.append_assoc]
      refine h.nodup.append (nodup_newRequests _ _) ?_
      intro path hissued hnew
      exact hfresh path hnew (h.requested path hissued)
    · intro path hissued
      rw [← List.append_assoc, List.mem_append] at hissued
      rcases hissued with hissued | hnew
      · exact List.mem_append_right _ (List.mem_cons_of_mem _ (h.requested path hissued))
      · exact List.mem_append_left _ (List.mem_reverse.mpr hnew)

/-- A path that is handed out goes from the pending ones to those handed out. -/
theorem nextImport {path : String} (h : Issued s handed) (hnext : s.nextImport = (some path, t)) :
    Issued t (handed ++ [path]) := by
  obtain ⟨rest, hpending, rfl⟩ := nextImport_eq_some_iff.mp hnext
  have hsame : handed ++ [path] ++ rest = handed ++ s.pending := by
    rw [hpending, List.append_assoc, List.singleton_append]
  refine ⟨hsame ▸ h.nodup, ?_⟩
  show ∀ q ∈ handed ++ [path] ++ rest, q ∈ s.requested
  rw [hsame]
  exact h.requested

end Issued

end Session

end Wasmline
