import CodeAtlas.Proofs.SortedTexts
import CodeAtlas.Resolution

/-!
# The searches of a resolver

A resolver goes through its paths in ascending order (`pairwise_paths_ofPaths`), and an entry of its
module map is the first path that has the key (`lookup_moduleMap`).  A specifier is resolved by
looking up its target, if it has one, and otherwise by its text (`resolve?_eq`); either way it
stands for one of the paths (`mem_of_resolve?_eq_some`).
-/

namespace CodeAtlas.Resolver

/-! ### The paths -/

theorem mem_paths_ofPaths {paths : List String} {p : String} :
    p ∈ (ofPaths paths).paths ↔ p ∈ paths :=
  mem_mergeSort_eraseDups

theorem pairwise_paths_ofPaths (paths : List String) :
    (ofPaths paths).paths.Pairwise (· < ·) :=
  pairwise_lt_mergeSort_eraseDups paths

/-- It does not matter in which order paths are given, or how often. -/
theorem ofPaths_congr {paths others : List String} (h : ∀ p, p ∈ paths ↔ p ∈ others) :
    ofPaths paths = ofPaths others := by
  have hpaths : (ofPaths paths).paths = (ofPaths others).paths := by
    refine (pairwise_paths_ofPaths paths).eq_of_mem_iff (pairwise_paths_ofPaths others) fun p => ?_
    rw [mem_paths_ofPaths, mem_paths_ofPaths, h]
  exact congrArg Resolver.mk hpaths

/-- Paths that are in order already are gone through as they are. -/
theorem ofPaths_of_pairwise {paths : List String} (h : paths.Pairwise (· < ·)) :
    ofPaths paths = ⟨paths⟩ := by
  have hpaths : (ofPaths paths).paths = paths :=
    (pairwise_paths_ofPaths paths).eq_of_mem_iff h fun _ => mem_paths_ofPaths
  exact congrArg Resolver.mk hpaths

/-! ### The module map -/

/-- A key that is added stands for the path unless it stood for another one before. -/
theorem lookup_addKey (path k key : String) (found : List (String × String)) :
    (addKey path found k).lookup key
      = (found.lookup key).or (if k = key then some path else none) := by
  unfold addKey
  split_ifs with hfound hk hk
  · -- the key is there already, so `path` does not come into question
    subst hk
    obtain ⟨entry, hmem, hentry⟩ := List.any_eq_true.mp hfound
    obtain ⟨q, hq⟩ := Option.isSome_iff_exists.mp
      (List.lookup_isSome_iff.mpr ⟨entry, hmem, beq_iff_eq.mpr (eq_of_beq hentry).symm⟩)
    rw [hq, Option.some_or]
  · rw [Option.or_none]
  · rw [List.lookup_append, List.lookup_singleton, if_pos (beq_iff_eq.mpr hk.symm)]
  · rw [List.lookup_append, List.lookup_singleton, 
      if_neg fun h => hk (eq_of_beq h).symm]

/-- The keys of one path are added without a change to the entries that are there. -/
theorem lookup_foldl_addKey (path key : String) (keys : List String) :
    ∀ found : List (String × String), (keys.foldl (addKey path) found).lookup key
      = (found.lookup key).or (if keys.contains key then some path else none) := by
  induction keys with
  | nil => intro found; simp
  | cons k keys ih =>
    intro found
    rw [List.foldl_cons, ih, lookup_addKey, Option.or_assoc]
    congr 1
    by_cases hk : k = key
    · subst hk; simp
    · simp [hk, Ne.symm hk]

/-- The module map has for every key the first path with that key. -/
theorem lookup_moduleMap (r : Resolver) (key : String) :
    r.moduleMap.lookup key = r.forKey? key := by
  suffices h : ∀ (paths : List String) (found : List (String × String)),
      (paths.foldl (fun found path => (keysOf path).foldl (addKey path) found) found).lookup key
        = (found.lookup key).or (paths.find? fun path => (keysOf path).contains key) by
    rw [moduleMap, h, List.lookup_nil, Option.none_or, forKey?]
  intro paths
  induction paths with
  | nil => intro found; simp
  | cons path paths ih =>
    intro found
    rw [List.foldl_cons, ih, lookup_foldl_addKey, Option.or_assoc]
    refine congrArg (Option.or _) ?_
    by_cases hkey : (keysOf path).contains key = true
    · rw [if_pos hkey, Option.some_or]
      exact (List.find?_cons_of_pos (p := fun path => (keysOf path).contains key) hkey).symm
    · rw [if_neg hkey, Option.none_or]
      exact (List.find?_cons_of_neg (p := fun path => (keysOf path).contains key) hkey).symm

/-! ### The target of a specifier -/

/-- Where a specifier leads by itself: a relative one from its importer, if there is one, and a
rooted one from the root. -/
def target? (specifier : String) (importer : Option String) : Option String :=
  match importer with
  | some file =>
    if isRelative specifier then some (targetFrom file specifier)
    else if isRooted specifier then some (targetFromRoot specifier)
    else none
  | none => if isRooted specifier then some (targetFromRoot specifier) else none

/-- A specifier stands for what is found at its target, or else for what its text matches. -/
theorem resolve?_eq (r : Resolver) {specifier : String} (hne : specifier ≠ "")
    (importer : Option String) :
    r.resolve? specifier importer
      = ((target? specifier importer).bind r.lookup?).or (r.matchText? specifier) := by
  simp only [resolve?, target?, if_neg hne]
  cases importer with
  | none => split_ifs <;> simp only [Option.bind_some, Option.bind_none]
  | some file => split_ifs <;> simp only [Option.bind_some, Option.bind_none]

theorem resolve?_empty (r : Resolver) (importer : Option String) :
    r.resolve? "" importer = none := by
  unfold resolve?
  rw [if_pos rfl]

/-! ### What a specifier stands for is one of the paths -/

theorem mem_of_matchText?_eq_some {r : Resolver} {specifier p : String}
    (h : r.matchText? specifier = some p) : p ∈ r.paths := by
  unfold matchText? at h
  dsimp only at h
  split_ifs at h
  rw [Option.or_eq_some_iff, Option.or_eq_some_iff, Option.or_eq_some_iff] at h
  rcases h with h | ⟨-, h | ⟨-, h | ⟨-, h⟩⟩⟩ <;> exact List.mem_of_find?_eq_some h

theorem mem_of_lookup?_eq_some {r : Resolver} {target p : String}
    (h : r.lookup? target = some p) : p ∈ r.paths := by
  unfold lookup? at h
  split_ifs at h with hout hmem
  · exact Option.some.inj h ▸ List.contains_iff_mem.mp hmem
  · exact List.mem_of_find?_eq_some h

theorem mem_of_resolve?_eq_some {r : Resolver} {specifier p : String} {importer : Option String}
    (h : r.resolve? specifier importer = some p) : p ∈ r.paths := by
  by_cases hne : specifier = ""
  · rw [hne, resolve?_empty] at h
    exact absurd h (by simp)
  · rw [resolve?_eq r hne] at h
    rcases Option.or_eq_some_iff.mp h with h | ⟨-, h⟩
    · obtain ⟨target, -, htarget⟩ := Option.bind_eq_some_iff.mp h
      exact mem_of_lookup?_eq_some htarget
    · exact mem_of_matchText?_eq_some h

end CodeAtlas.Resolver
