import CodeAtlas.Proofs.Path.Walks
import CodeAtlas.Proofs.Resolution.Precedence

/-!
# Relative specifiers find what is there

A relative specifier is a walk from the directory of the importing file, and it is looked up at the
end of the walk (`targetFrom_walk`).  If a file is there, it is found; if a directory is there that
has an index file and no file of its name beside it, the index file is found
(`resolve?_walk`).

There are two exceptions.  A walk to the root finds nothing, though the root may have an index file;
and what has a path that begins with two points is taken to lie above the root, so that the
specifier is only matched by its text and another file may be found (`overlooked_targets`).
-/

namespace CodeAtlas.Resolver

open PathText

/-! ### Walks as specifiers -/

theorem isRelative_walk (up : Nat) (down : List String) : isRelative (walk up down) = true := by
  rw [isRelative, Text.beginsWith, List.isPrefixOf_iff_prefix, walk, steps]
  split_ifs with hup
  · obtain ⟨tail, htail⟩ := exists_toList_ofComponents_cons "." down
    exact ⟨tail, htail.symm⟩
  · obtain ⟨more, rfl⟩ := Nat.exists_eq_succ_of_ne_zero hup
    rw [List.replicate_succ, List.cons_append]
    obtain ⟨tail, htail⟩ :=
      exists_toList_ofComponents_cons ".." (List.replicate more ".." ++ down)
    exact ⟨'.' :: tail, htail.symm⟩

/-- A walk from the directory of the importing file leads to its end. -/
theorem targetFrom_walk {importer : String} {base up down : List String} (h : IsNamed importer)
    (hdirectory : (components importer).dropLast = base ++ up) (hdown : ∀ n ∈ down, IsName n) :
    targetFrom importer (walk up.length down)
      = if base ++ down = [] then "." else ofComponents (base ++ down) := by
  have hup : ∀ n ∈ base ++ up, IsName n := by
    intro n hn
    exact h.isName_of_mem_dropLast (hdirectory ▸ hn)
  rw [targetFrom, dirname_of_liesIn h.liesIn, hdirectory]
  exact normalize_join_walk hup hdown

/-- A walk that only goes up names nothing. -/
theorem needle_walk_nil (up : Nat) : needle (walk up []) = "" := by
  have hsteps : components (walk up []) = steps up [] := by
    refine components_ofComponents (steps_ne_nil _ _) fun n hn => ?_
    exact (isPlain_of_mem_steps (by simp) n hn).2
  have hnone : (steps up []).filter (fun c => !(["", ".", ".."].contains c)) = [] := by
    rw [List.filter_eq_nil_iff]
    intro step hstep
    rcases mem_steps hstep with rfl | rfl | hstep
    · decide
    · decide
    · exact absurd hstep List.not_mem_nil
  rw [needle, hsteps, hnone, ofComponents_nil]

theorem matchText?_walk_nil (r : Resolver) (up : Nat) : r.matchText? (walk up []) = none := by
  rw [matchText?, needle_walk_nil]
  rfl

/-! ### What is found at the end of a walk -/

theorem lookup?_root (r : Resolver) : r.lookup? "." = none := by
  rw [lookup?, if_pos (by simp)]

theorem lookup?_of_beginsWith_points (r : Resolver) {target : String}
    (h : Text.beginsWith ".." target = true) : r.lookup? target = none := by
  rw [lookup?, if_pos (by simp [h])]

theorem lookup?_of_mem {paths : List String} {target : String} (hmem : target ∈ paths)
    (hnamed : IsNamed target) (hinside : Text.beginsWith ".." target = false) :
    (ofPaths paths).lookup? target = some target := by
  rw [lookup?, if_neg (by simp [hinside, hnamed.ne_point]),
    if_pos (List.contains_iff_mem.mpr (mem_paths_ofPaths.mpr hmem))]

/-- A key without files of its name stands for an index file of the directory that it names. -/
theorem exists_forKey?_eq_index {paths : List String} (hpaths : ∀ p ∈ paths, IsNamed p)
    {directory : String} (hdirectory : directory ≠ "") (hmem : directory ∉ paths)
    (hindex : ∃ p ∈ paths, stripExtension p = directory ++ "/index")
    (hbeside : ∀ p ∈ paths, HasExtension p → stripExtension p ≠ directory) :
    ∃ p ∈ paths, stripExtension p = directory ++ "/index" ∧
      (ofPaths paths).forKey? directory = some p := by
  have hkeys : ∀ p ∈ paths,
      directory ∈ keysOf p ↔ stripExtension p = directory ++ "/index" := by
    intro p hp
    have hplain : "" ∉ components p := fun hempty => (hpaths p hp "" hempty).1.1 rfl
    rw [mem_keysOf_iff, isIndexOf_iff hdirectory hplain, or_iff_right]
    intro hstem
    -- a file of the name would have the extension of a dialect or be the directory itself
    by_cases hext : HasExtension p
    · exact hbeside p hp hext hstem
    · rw [stripExtension_eq_self hext] at hstem
      exact hmem (hstem ▸ hp)
  obtain ⟨q, hq, hqindex⟩ := hindex
  unfold forKey?
  cases hfound : (ofPaths paths).paths.find? fun p => (keysOf p).contains directory with
  | none =>
    have hno := List.find?_eq_none.mp hfound q (mem_paths_ofPaths.mpr hq)
    exact absurd (List.contains_iff_mem.mpr ((hkeys q hq).mpr hqindex)) hno
  | some p =>
    have hp : p ∈ paths := mem_paths_ofPaths.mp (List.mem_of_find?_eq_some hfound)
    have hkey := List.find?_some hfound
    exact ⟨p, hp, (hkeys p hp).mp (List.contains_iff_mem.mp hkey), rfl⟩

/-- **Relative specifiers find what is there.**  Let all paths be made of names, and let a walk go
from the directory of a file up to one that it lies in and down again.
* If the end of the walk is one of the files, this file is found.
* If it is a directory with an index file, its name has no extension and it has no file of its name
  beside it, then one of its index files is found.

The exceptions are that the end of the walk is the root, where nothing is found, and that its path
begins with two points, where the specifier is only matched by its text. -/
theorem resolve?_walk {paths : List String} (hpaths : ∀ p ∈ paths, IsNamed p) {importer : String}
    (himporter : importer ∈ paths) {base up down : List String}
    (hdirectory : (components importer).dropLast = base ++ up) (hdown : ∀ n ∈ down, IsName n) :
    let target := ofComponents (base ++ down)
    let found := (ofPaths paths).resolve? (walk up.length down) (some importer)
    (Text.beginsWith ".." target = false →
      (target ∈ paths → found = some target) ∧
      (base ++ down ≠ [] → target ∉ paths → ¬ HasExtension target →
        (∃ p ∈ paths, HasExtension p ∧ stripExtension p = target ++ "/index") →
        (∀ p ∈ paths, HasExtension p → stripExtension p ≠ target) →
        ∃ p ∈ paths, stripExtension p = target ++ "/index" ∧ found = some p)) ∧
    (base ++ down = [] → found = none) ∧
    (Text.beginsWith ".." target = true →
      found = (ofPaths paths).matchText? (walk up.length down)) := by
  intro target found
  have hfound : found = ((ofPaths paths).lookup? (if base ++ down = [] then "." else target)).or
      ((ofPaths paths).matchText? (walk up.length down)) := by
    rw [← targetFrom_walk (hpaths importer himporter) hdirectory hdown]
    exact resolve?_of_isRelative _ (isRelative_walk _ _)
  have hnames : ∀ n ∈ base ++ down, IsName n := by
    intro n hn
    rcases List.mem_append.mp hn with hn | hn
    · have hmem : n ∈ (components importer).dropLast := hdirectory ▸ List.mem_append_left _ hn
      exact (hpaths importer himporter).isName_of_mem_dropLast hmem
    · exact hdown n hn
  have hempty : base ++ down = [] → target = "" := by
    intro hroot
    show ofComponents (base ++ down) = ""
    rw [hroot, ofComponents_nil]
  refine ⟨fun hinside => ⟨fun hmem => ?_, fun hne hmem hext hindex hbeside => ?_⟩,
    fun hroot => ?_, fun habove => ?_⟩
  · -- the end of the walk is a file; no file is the root, which has no name
    have hnamed : IsNamed target := hpaths target hmem
    rw [hfound, if_neg (mt hempty hnamed.ne_empty), lookup?_of_mem hmem hnamed hinside,
      Option.some_or]
  · have hnamed : IsNamed target := isNamed_ofComponents hne hnames
    obtain ⟨q, hq, -, hqindex⟩ := hindex
    obtain ⟨p, hp, hpindex, hkey⟩ :=
      exists_forKey?_eq_index hpaths hnamed.ne_empty hmem ⟨q, hq, hqindex⟩ hbeside
    refine ⟨p, hp, hpindex, ?_⟩
    rw [hfound, if_neg hne, lookup?_eq_forKey? hinside hnamed.ne_point hmem hext, hkey,
      Option.some_or]
  · -- the root is not looked up, and a walk to it has no text that could match
    have hdownnil : down = [] := (List.append_eq_nil_iff.mp hroot).2
    rw [hfound, if_pos hroot, lookup?_root, hdownnil, matchText?_walk_nil, Option.none_or]
  · have hne : base ++ down ≠ [] := by
      intro hroot
      rw [hempty hroot] at habove
      exact absurd habove (by decide)
    rw [hfound, if_neg hne, lookup?_of_beginsWith_points _ habove, Option.none_or]

/-- A directory with an index file and another file, and an importing file in the directory beside
it. -/
def neighbouringDirectories : List String := ["lib/index.ts", "lib/util.js", "src/app.ts"]

/-- The other directory stands for its index file, and the other file for itself. -/
theorem resolve?_walk_neighbours :
    walk 1 ["lib"] = "../lib" ∧ walk 1 ["lib", "util.js"] = "../lib/util.js" ∧
    (ofPaths neighbouringDirectories).resolve? "../lib" (some "src/app.ts")
      = some "lib/index.ts" ∧
    (ofPaths neighbouringDirectories).resolve? "../lib/util.js" (some "src/app.ts")
      = some "lib/util.js" := by
  have hpaths : ∀ p ∈ neighbouringDirectories, IsNamed p := by decide +kernel
  have himporter : "src/app.ts" ∈ neighbouringDirectories := by decide
  have hdirectory : (components "src/app.ts").dropLast = [] ++ ["src"] := by decide +kernel
  have hlib : ∀ n ∈ ["lib"], IsName n := by decide
  have hutil : ∀ n ∈ ["lib", "util.js"], IsName n := by decide
  have hwalk : walk 1 ["lib"] = "../lib" := by decide +kernel
  have hwalk' : walk 1 ["lib", "util.js"] = "../lib/util.js" := by decide +kernel
  have htarget : ofComponents ([] ++ ["lib"]) = "lib" := by decide
  have htarget' : ofComponents ([] ++ ["lib", "util.js"]) = "lib/util.js" := by decide +kernel
  have hdown := (resolve?_walk hpaths himporter hdirectory hlib).1
  have hdown' := (resolve?_walk hpaths himporter hdirectory hutil).1
  simp only [List.length_singleton, hwalk, hwalk', htarget, htarget'] at hdown hdown'
  refine ⟨hwalk, hwalk', ?_, (hdown' (by decide)).1 (by decide)⟩
  obtain ⟨p, hp, hpindex, hfound⟩ := (hdown (by decide)).2 (by decide) (by decide)
    (by decide +kernel) ⟨"lib/index.ts", by decide, by decide +kernel⟩ (by decide +kernel)
  have honly : ∀ p ∈ neighbouringDirectories,
      stripExtension p = "lib" ++ "/index" → p = "lib/index.ts" := by
    decide +kernel
  rw [hfound, honly p hp hpindex]

/-- The root has an index file, which is not found for it; and of two files whose names begin with
two points and that differ in their extensions, the first is found for the second. -/
theorem overlooked_targets :
    let paths := ["..notes.js", "..notes.ts", "index.js", "main.js"]
    (∀ p ∈ paths, IsNamed p) ∧
    walk 0 [] = "." ∧ stripExtension "index.js" = "index" ∧
    (ofPaths paths).resolve? "." (some "main.js") = none ∧
    walk 0 ["..notes.ts"] = "./..notes.ts" ∧
    (ofPaths paths).resolve? "./..notes.ts" (some "main.js") = some "..notes.js" := by
  have hpaths : ofPaths ["..notes.js", "..notes.ts", "index.js", "main.js"]
      = ⟨["..notes.js", "..notes.ts", "index.js", "main.js"]⟩ :=
    ofPaths_of_pairwise (by decide +kernel)
  intro paths
  refine ⟨by decide +kernel, by decide +kernel, by decide +kernel, ?_, by decide +kernel, ?_⟩
  · rw [hpaths]
    decide +kernel
  · rw [hpaths]
    decide +kernel

end CodeAtlas.Resolver
