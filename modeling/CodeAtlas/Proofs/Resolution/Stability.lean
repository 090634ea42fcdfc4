import CodeAtlas.Proofs.Resolution.Search

/-!
# Resolution when files are left out

A specifier is resolved by a row of searches, each of which takes the least path that passes a test.
Leaving files out can therefore only disturb the specifiers that stood for one of them
(`resolve?_stable`): whatever stood for nothing still does, and what stood for a file that is kept
stands for the same file.

The relation `Narrows kept wide narrow` says this of one choice among all files and the same choice
among the files of `kept`.  Each search narrows (`Narrows.find?`), and searches that are tried one
after the other narrow if each of them does (`Narrows.or`).
-/

namespace CodeAtlas

/-- `narrow` is what becomes of the choice `wide` when only the paths of `kept` are left to choose
from. -/
structure Narrows (kept : List String) (wide narrow : Option String) : Prop where
  /-- Where nothing was chosen, nothing is. -/
  none_of_none : wide = none → narrow = none
  /-- What was chosen and is kept is chosen again. -/
  some_of_mem : ∀ p ∈ kept, wide = some p → narrow = some p

namespace Narrows

variable {kept : List String}

theorem none : Narrows kept none none :=
  ⟨fun _ => rfl, fun _ _ h => h⟩

/-- The first path that passes a test. -/
theorem find? (test : String → Bool) (paths : List String) :
    Narrows kept (paths.find? test) ((paths.filter (kept.contains ·)).find? test) := by
  constructor
  · intro h
    rw [List.find?_eq_none] at h ⊢
    exact fun p hp => h p (List.mem_of_mem_filter hp)
  · intro p hp h
    rw [List.find?_eq_some_iff_append] at h ⊢
    -- `p` comes after paths that fail the test, and so do those of them that are kept.
    obtain ⟨htest, before, after, rfl, hbefore⟩ := h
    refine ⟨htest, before.filter (kept.contains ·), after.filter (kept.contains ·), ?_, ?_⟩
    · rw [List.filter_append, List.filter_cons_of_pos (List.contains_iff_mem.mpr hp)]
    · exact fun q hq => hbefore q (List.mem_of_mem_filter hq)

/-- One choice, and another if the first comes to nothing. -/
theorem or {wide wide' narrow narrow' : Option String} (h : Narrows kept wide narrow)
    (h' : Narrows kept wide' narrow') : Narrows kept (wide.or wide') (narrow.or narrow') := by
  cases hw : wide with
  | none =>
    rw [h.none_of_none hw, Option.none_or, Option.none_or]
    exact h'
  | some p =>
    rw [Option.some_or]
    refine ⟨fun hp => absurd hp (Option.some_ne_none p), fun q hq hpq => ?_⟩
    rw [h.some_of_mem q hq (hw.trans hpq), Option.some_or]

end Narrows

namespace Resolver

/-- The resolver for some of the files has the paths of the resolver for all that are kept. -/
theorem paths_ofPaths_eq_filter {all kept : List String} (hsub : kept ⊆ all) :
    (ofPaths kept).paths = (ofPaths all).paths.filter (kept.contains ·) :=
  mergeSort_eraseDups_eq_filter hsub

/-! ### The searches narrow -/

section Narrowing

variable {all kept : List String} (hsub : kept ⊆ all)
include hsub

theorem narrows_find? (test : String → Bool) :
    Narrows kept ((ofPaths all).paths.find? test) ((ofPaths kept).paths.find? test) := by
  rw [paths_ofPaths_eq_filter hsub]
  exact Narrows.find? test _

theorem narrows_matchText? (specifier : String) :
    Narrows kept ((ofPaths all).matchText? specifier) ((ofPaths kept).matchText? specifier) := by
  unfold matchText?
  dsimp only
  split_ifs
  · exact Narrows.none
  · exact (narrows_find? hsub _).or <| (narrows_find? hsub _).or <|
      (narrows_find? hsub _).or (narrows_find? hsub _)

/-- A target that is one of the files stands for itself only as long as it is kept; otherwise its
stem is looked for among the keys. -/
theorem narrows_lookup? (target : String) :
    Narrows kept ((ofPaths all).lookup? target) ((ofPaths kept).lookup? target) := by
  unfold lookup?
  simp only [List.contains_iff_mem, mem_paths_ofPaths]
  split_ifs with hout hall hkept hkept
  · exact Narrows.none
  · exact ⟨fun h => h, fun _ _ h => h⟩
  · refine ⟨fun h => absurd h (Option.some_ne_none target), fun p hp h => ?_⟩
    exact absurd (Option.some.inj h ▸ hp) hkept
  · exact absurd (hsub hkept) hall
  · exact narrows_find? hsub _

theorem narrows_resolve? (specifier : String) (importer : Option String) :
    Narrows kept ((ofPaths all).resolve? specifier importer)
      ((ofPaths kept).resolve? specifier importer) := by
  by_cases hne : specifier = ""
  · rw [hne, resolve?_empty, resolve?_empty]
    exact Narrows.none
  · rw [resolve?_eq _ hne, resolve?_eq _ hne]
    refine Narrows.or ?_ (narrows_matchText? hsub specifier)
    cases target? specifier importer with
    | none => exact Narrows.none
    | some target => exact narrows_lookup? hsub target

end Narrowing

/-! ### Stability -/

/-- **Stability of resolution.**  Let the files of `kept` be some of the files of `all`.  A
specifier that stands for none of `all` stands for none of `kept`, and one that stands for a file of
`kept` among `all` stands for it among `kept`; so the further files of `all` either leave what a
specifier stands for as it is or make it one of them.  In particular, a single file that is left out
matters only to the specifiers that stood for it. -/
theorem resolve?_stable {all kept : List String} (hsub : kept ⊆ all) (specifier : String)
    (importer : Option String) :
    ((ofPaths all).resolve? specifier importer = none →
      (ofPaths kept).resolve? specifier importer = none) ∧
    (∀ p ∈ kept, (ofPaths all).resolve? specifier importer = some p →
      (ofPaths kept).resolve? specifier importer = some p) ∧
    ((ofPaths all).resolve? specifier importer = (ofPaths kept).resolve? specifier importer ∨
      ∃ p ∈ all, p ∉ kept ∧ (ofPaths all).resolve? specifier importer = some p) ∧
    (∀ skipped, (ofPaths all).resolve? specifier importer ≠ some skipped →
      (ofPaths (all.filter (· ≠ skipped))).resolve? specifier importer
        = (ofPaths all).resolve? specifier importer) := by
  have hnarrows := narrows_resolve? hsub specifier importer
  refine ⟨hnarrows.none_of_none, hnarrows.some_of_mem, ?_, fun skipped hskipped => ?_⟩
  · cases hall : (ofPaths all).resolve? specifier importer with
    | none => exact Or.inl (hnarrows.none_of_none hall).symm
    | some p =>
      by_cases hp : p ∈ kept
      · exact Or.inl (hnarrows.some_of_mem p hp hall).symm
      · exact Or.inr ⟨p, mem_paths_ofPaths.mp (mem_of_resolve?_eq_some hall), hp, rfl⟩
  · have hkept : all.filter (· ≠ skipped) ⊆ all := List.filter_subset_self all
    have hrest := narrows_resolve? hkept specifier importer
    cases hall : (ofPaths all).resolve? specifier importer with
    | none => exact hrest.none_of_none hall
    | some p =>
      have hp : p ∈ all := mem_paths_ofPaths.mp (mem_of_resolve?_eq_some hall)
      have hne : p ≠ skipped := fun h => hskipped (h ▸ hall)
      exact hrest.some_of_mem p (List.mem_filter.mpr ⟨hp, decide_eq_true hne⟩) hall

/-- A directory is found by its index file when the file that comes before it is left out, and a
file that is named outright is found either way. -/
theorem resolve?_stable_index_file :
    ["lib/index.ts", "src/app.ts"] ⊆ ["lib.ts", "lib/index.ts", "src/app.ts"] ∧
    (ofPaths ["lib.ts", "lib/index.ts", "src/app.ts"]).resolve? "../lib" (some "src/app.ts")
      = some "lib.ts" ∧
    (ofPaths ["lib/index.ts", "src/app.ts"]).resolve? "../lib" (some "src/app.ts")
      = some "lib/index.ts" ∧
    (ofPaths ["lib/index.ts", "src/app.ts"]).resolve? "../lib/index" (some "src/app.ts")
      = some "lib/index.ts" := by
  have hsub : ["lib/index.ts", "src/app.ts"] ⊆ ["lib.ts", "lib/index.ts", "src/app.ts"] := by
    decide
  have hall := ofPaths_of_pairwise
    (show ["lib.ts", "lib/index.ts", "src/app.ts"].Pairwise (· < ·) by decide +kernel)
  have hkept := ofPaths_of_pairwise
    (show ["lib/index.ts", "src/app.ts"].Pairwise (· < ·) by decide +kernel)
  refine ⟨hsub, ?_, ?_, ?_⟩
  · rw [hall]; decide +kernel
  · rw [hkept]; decide +kernel
  · apply (resolve?_stable hsub "../lib/index" (some "src/app.ts")).2.1
    · decide
    · rw [hall]; decide +kernel

end Resolver

end CodeAtlas
