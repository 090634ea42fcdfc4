import CodeAtlas.Proofs.Path.Extensions
import CodeAtlas.Proofs.Resolution.Search
import Mathlib.Order.Bounds.Basic

/-!
# A file comes before the index file of a directory

A key stands for the files that it names without their extensions and for the index files of the
directory that it names (`mem_keysOf_iff`).  The former come before the latter in the order of
paths, because a point is less than a slash (`lt_of_isIndexOf`).  So the least path with a key is
that of a file as long as there is one, and a relative specifier stands for the index file of a
directory only where no file has the name of the directory (`resolve?_file_before_index`).

An index file is one whose path is cut into the directory and a name that is `index` without its
extension (`IsIndexOf`).  If no component of the path is empty, then this path is that of the
directory with `/index` behind it and perhaps an extension (`isIndexOf_iff`); with an empty
component it need not be (`doubledSlash_precedes_text`).
-/

namespace CodeAtlas.Resolver

open PathText

/-! ### Keys -/

/-- The file is an index file that lies in the directory. -/
def IsIndexOf (directory path : String) : Prop :=
  stripExtension (basename path) = "index" ∧ dirname path = directory

instance (directory path : String) : Decidable (IsIndexOf directory path) :=
  inferInstanceAs (Decidable (_ ∧ _))

theorem mem_keysOf_iff {key path : String} :
    key ∈ keysOf path ↔ stripExtension path = key ∨ IsIndexOf key path := by
  unfold keysOf IsIndexOf
  dsimp only
  rw [basename_stripExtension, dirname_stripExtension]
  split_ifs with hindex
  · simp [hindex, eq_comm]
  · simp [hindex, eq_comm]

/-- The first of some paths in order that passes a test is the least one that does. -/
theorem find?_eq_some_of_isLeast {paths : List String} (hsorted : paths.Pairwise (· < ·))
    {test : String → Bool} {p : String} (h : IsLeast {q | q ∈ paths ∧ test q = true} p) :
    paths.find? test = some p := by
  obtain ⟨⟨hmem, htest⟩, hleast⟩ := h
  cases hfind : paths.find? test with
  | none => exact absurd htest (List.find?_eq_none.mp hfind p hmem)
  | some q =>
    obtain ⟨hq, before, after, rfl, hbefore⟩ := List.find?_eq_some_iff_append.mp hfind
    have hle : p ≤ q := hleast ⟨by simp, hq⟩
    have hafter : ∀ x ∈ after, q < x := by
      have hrest := (List.pairwise_append.mp hsorted).2.1
      exact (List.pairwise_cons.mp hrest).1
    rw [List.mem_append, List.mem_cons] at hmem
    rcases hmem with hp | rfl | hp
    · have hfails := hbefore p hp
      rw [htest] at hfails
      exact absurd hfails (by decide)
    · rfl
    · exact absurd (hafter p hp) (not_lt_of_ge hle)

/-- A key stands for the least of the paths that have it. -/
theorem forKey?_of_isLeast {paths : List String} {key p : String}
    (h : IsLeast {q | q ∈ paths ∧ (stripExtension q = key ∨ IsIndexOf key q)} p) :
    (ofPaths paths).forKey? key = some p := by
  refine find?_eq_some_of_isLeast (pairwise_paths_ofPaths paths) ?_
  have hset : {q | q ∈ (ofPaths paths).paths ∧ (keysOf q).contains key = true}
      = {q | q ∈ paths ∧ (stripExtension q = key ∨ IsIndexOf key q)} := by
    ext q
    simp only [Set.mem_ofPred_eq, mem_paths_ofPaths, List.contains_iff_mem, mem_keysOf_iff]
  rwa [hset]

theorem forKey?_eq_none {paths : List String} {key : String}
    (h : ∀ q ∈ paths, stripExtension q ≠ key ∧ ¬ IsIndexOf key q) :
    (ofPaths paths).forKey? key = none := by
  rw [forKey?, List.find?_eq_none]
  intro q hq hkey
  obtain ⟨hfile, hindex⟩ := h q (mem_paths_ofPaths.mp hq)
  rcases mem_keysOf_iff.mp (List.contains_iff_mem.mp hkey) with hkey | hkey
  · exact hfile hkey
  · exact hindex hkey

/-! ### Files come before index files -/

/-- Of two texts with the same beginning the one that goes on with the lesser character is less. -/
theorem lt_of_append_cons {p q : String} {start s t : List Char} {c d : Char}
    (hp : p.toList = start ++ c :: s) (hq : q.toList = start ++ d :: t) (h : c < d) : p < q := by
  rw [String.lt_iff_toList_lt, hp, hq]
  exact List.append_left_lt (List.Lex.rel h)

/-- The file that a key names without its extension comes before the index files of the directory
that it names. -/
theorem lt_of_isIndexOf {key p q : String} (hp : stripExtension p = key) (hne : p ≠ key)
    (hq : IsIndexOf key q) : p < q := by
  have hext : HasExtension p := hasExtension_iff.mpr (by rw [hp]; exact Ne.symm hne)
  obtain ⟨ext, hpoint⟩ := toList_eq_of_hasExtension hext
  obtain ⟨rest, hslash⟩ :=
    toList_eq_of_dirname hq.2 (hp ▸ exists_toList_stripExtension_eq_concat hext)
  rw [hp] at hpoint
  exact lt_of_append_cons hpoint hslash (by decide)

/-- A path without empty components is that of an index file if, but for its extension, it is that of
the directory with `/index` behind it. -/
theorem isIndexOf_iff {directory path : String} (hdirectory : directory ≠ "")
    (hpath : "" ∉ components path) :
    IsIndexOf directory path ↔ stripExtension path = directory ++ "/index" := by
  have hlies := liesIn_dropLast_components hpath
  have hhead := splitLast_fst_of_liesIn hlies
  rw [IsIndexOf, dirname_of_liesIn hlies, ← basename_stripExtension]
  rw [← splitLast_fst_stripExtension] at hhead
  constructor
  · rintro ⟨hname, rfl⟩
    rw [if_neg fun hroot => hdirectory (by rw [hroot]; rfl)] at hhead
    have hstem := (splitLast_spec (stripExtension path)).1
    have htail : (splitLast (stripExtension path)).2 = "index".toList := by
      rw [← hname, basename, String.toList_ofList]
    rw [← String.toList_inj, hstem, hhead, htail, String.toList_append, List.append_assoc]
    rfl
  · intro hstem
    have hcut : (stripExtension path).toList = (directory.toList ++ ['/']) ++ "index".toList := by
      rw [hstem, String.toList_append, List.append_assoc]
      rfl
    have hsplit := splitLast_eq hcut (by decide) (Or.inr ⟨_, rfl⟩)
    rw [hsplit] at hhead
    refine ⟨by rw [basename, hsplit]; exact String.ofList_toList, ?_⟩
    split_ifs at hhead
    · simp at hhead
    · exact String.toList_inj.mp (List.append_cancel_right hhead).symm

/-! ### What a relative specifier stands for -/

theorem normalize_ne_empty (p : String) : PathText.normalize p ≠ "" := by
  unfold PathText.normalize
  dsimp only
  split_ifs with hempty
  · decide
  · simpa using hempty

/-- What is found at a target that is neither above the root nor the root nor one of the files, and
that has no extension, is what the target is a key of. -/
theorem lookup?_eq_forKey? {paths : List String} {target : String}
    (habove : Text.beginsWith ".." target = false) (hroot : target ≠ ".")
    (hmem : target ∉ paths) (hext : ¬ HasExtension target) :
    (ofPaths paths).lookup? target = (ofPaths paths).forKey? target := by
  have hmem' : (ofPaths paths).paths.contains target ≠ true :=
    mt (fun h => mem_paths_ofPaths.mp (List.contains_iff_mem.mp h)) hmem
  rw [lookup?, if_neg (by simp [habove, hroot]), if_neg hmem', stripExtension_eq_self hext]

/-- A relative specifier stands for what is found at its target, or else for what its text matches.
-/
theorem resolve?_of_isRelative (r : Resolver) {specifier importer : String}
    (hrelative : isRelative specifier = true) :
    r.resolve? specifier (some importer)
      = (r.lookup? (targetFrom importer specifier)).or (r.matchText? specifier) := by
  have hne : specifier ≠ "" := by
    rintro rfl
    exact absurd hrelative (by decide)
  rw [resolve?_eq r hne, target?, if_pos hrelative, Option.bind_some]

/-- **A file wins over the index file of a directory.**  Let a relative specifier lead to a place
below the root that is none of the files and has no extension.  It stands for the least file whose
path is that place but for the extension.  If there is none, it stands for the least index file in
the directory of that place; and if there is none either, it is matched by its text.  For paths
without empty components an index file of a directory is one whose path is, but for its extension,
that of the directory with `/index` behind it. -/
theorem resolve?_file_before_index (paths : List String) (importer : String) {specifier : String}
    (hrelative : isRelative specifier = true) :
    let target := targetFrom importer specifier
    let found := (ofPaths paths).resolve? specifier (some importer)
    target ≠ "." → Text.beginsWith ".." target = false → target ∉ paths → ¬ HasExtension target →
      (∀ p, IsLeast {q | q ∈ paths ∧ stripExtension q = target} p → found = some p) ∧
      ((∀ q ∈ paths, stripExtension q ≠ target) →
        ∀ p, IsLeast {q | q ∈ paths ∧ IsIndexOf target q} p → found = some p) ∧
      ((∀ q ∈ paths, stripExtension q ≠ target ∧ ¬ IsIndexOf target q) →
        found = (ofPaths paths).matchText? specifier) ∧
      ((∀ q ∈ paths, "" ∉ components q) →
        ∀ q ∈ paths, IsIndexOf target q ↔ stripExtension q = target ++ "/index") := by
  intro target found hroot habove hmem hext
  have hfound : found
      = ((ofPaths paths).forKey? target).or ((ofPaths paths).matchText? specifier) := by
    rw [← lookup?_eq_forKey? habove hroot hmem hext]
    exact resolve?_of_isRelative _ hrelative
  have htarget : target ≠ "" := normalize_ne_empty _
  refine ⟨fun p hp => ?_, fun hnone p hp => ?_, fun hnone => ?_, fun hpaths q hq => ?_⟩
  · obtain ⟨⟨hpmem, hpstem⟩, hleast⟩ := hp
    have hne : p ≠ target := ne_of_mem_of_not_mem hpmem hmem
    have hkey : (ofPaths paths).forKey? target = some p := by
      refine forKey?_of_isLeast ⟨⟨hpmem, Or.inl hpstem⟩, ?_⟩
      rintro q ⟨hq, hstem | hindex⟩
      · exact hleast ⟨hq, hstem⟩
      · exact (lt_of_isIndexOf hpstem hne hindex).le
    rw [hfound, hkey, Option.some_or]
  · have hkey : (ofPaths paths).forKey? target = some p := by
      obtain ⟨⟨hpmem, hpindex⟩, hleast⟩ := hp
      refine forKey?_of_isLeast ⟨⟨hpmem, Or.inr hpindex⟩, ?_⟩
      rintro q ⟨hq, hstem | hindex⟩
      · exact absurd hstem (hnone q hq)
      · exact hleast ⟨hq, hindex⟩
    rw [hfound, hkey, Option.some_or]
  · rw [hfound, forKey?_eq_none hnone, Option.none_or]
  · exact isIndexOf_iff htarget (hpaths q hq)

/-- A file, and beside it a directory of the same name with two index files. -/
def besideDirectory : List String := ["lib.ts", "lib/index.js", "lib/index.ts", "src/app.ts"]

/-- The file is found, and without it the first of the index files. -/
theorem resolve?_file_before_index_beside :
    isRelative "../lib" = true ∧ targetFrom "src/app.ts" "../lib" = "lib" ∧
    (ofPaths besideDirectory).resolve? "../lib" (some "src/app.ts") = some "lib.ts" ∧
    (ofPaths besideDirectory.tail).resolve? "../lib" (some "src/app.ts")
      = some "lib/index.js" := by
  have hrelative : isRelative "../lib" = true := by decide
  have htarget : targetFrom "src/app.ts" "../lib" = "lib" := by decide +kernel
  have hfile : ∀ q ∈ besideDirectory, stripExtension q = "lib" → "lib.ts" ≤ q := by
    decide +kernel
  have hnone : ∀ q ∈ besideDirectory.tail, stripExtension q ≠ "lib" := by decide +kernel
  have hindex : ∀ q ∈ besideDirectory.tail, IsIndexOf "lib" q → "lib/index.js" ≤ q := by
    decide +kernel
  have hbeside := resolve?_file_before_index besideDirectory "src/app.ts" hrelative
  have hrest := resolve?_file_before_index besideDirectory.tail "src/app.ts" hrelative
  rw [htarget] at hbeside hrest
  have hext : ¬ HasExtension "lib" := by decide +kernel
  refine ⟨hrelative, htarget, ?_, ?_⟩
  · apply (hbeside (by decide) (by decide) (by decide) hext).1
    exact ⟨⟨by decide, by decide +kernel⟩, fun q hq => hfile q hq.1 hq.2⟩
  · apply (hrest (by decide) (by decide) (by decide) hext).2.1 hnone
    exact ⟨⟨by decide, by decide +kernel⟩, fun q hq => hindex q hq.1 hq.2⟩

/-- An index file with two slashes before its name.  But for its extension it is not `lib/index`, and
no other file is `lib` or `lib/index` either; but it lies in `lib`, and is found before the file that
the text of the specifier matches. -/
theorem doubledSlash_precedes_text :
    let paths := ["lib//index.js", "src/lib.js"]
    targetFrom "main.js" "./lib" = "lib" ∧ "lib" ∉ paths ∧ ¬ HasExtension "lib" ∧
    (∀ q ∈ paths, stripExtension q ≠ "lib" ∧ stripExtension q ≠ "lib/index") ∧
    (ofPaths paths).matchText? "./lib" = some "src/lib.js" ∧
    (ofPaths paths).resolve? "./lib" (some "main.js") = some "lib//index.js" := by
  have hpaths : ofPaths ["lib//index.js", "src/lib.js"] = ⟨["lib//index.js", "src/lib.js"]⟩ :=
    ofPaths_of_pairwise (by decide +kernel)
  intro paths
  refine ⟨by decide +kernel, by decide, by decide +kernel, by decide +kernel, ?_, ?_⟩
  · rw [hpaths]
    decide +kernel
  · rw [hpaths]
    decide +kernel

end CodeAtlas.Resolver
