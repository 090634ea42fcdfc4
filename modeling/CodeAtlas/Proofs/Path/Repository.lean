import CodeAtlas.Proofs.Path.Walks

/-!
# Paths as seen from a repository

The path of a file in a repository is what its spelling has behind that of the root, in which a `..`
stays as it is, and the way from the root to the file if the spellings part, in which every `..` has
been collapsed.  Both denote the file (`Path.inRepository_denotes`): seen from the root and
normalized, each of them is the normalized path of the file.  The reason is the same for both.  To
normalize a path seen from the root is to go on collapsing where the components of the root have led
(`collapse_components_join`), and from there both lead to where the components of the file lead
(`foldl_relativeTo?`, `foldl_wayTo`).
-/

namespace CodeAtlas

namespace PathText

variable {rooted : Bool} {kept parts : List String}

/-! ### Components of joined paths -/

theorem splitOn_append_separator (sep : Char) (cs rest : List Char) :
    splitOn sep (cs ++ sep :: rest) = splitOn sep cs ++ splitOn sep rest := by
  induction cs with
  | nil => simp [splitOn]
  | cons c cs ih =>
    rw [List.cons_append, splitOn, splitOn, ih]
    split_ifs
    · rfl
    · cases hsplit : splitOn sep cs with
      | nil => exact absurd hsplit (splitOn_ne_nil sep cs)
      | cons first others => rfl

theorem components_append_slash (directory p : String) :
    components (directory ++ "/" ++ p) = components directory ++ components p := by
  have htext : (directory ++ "/" ++ p).toList = directory.toList ++ '/' :: p.toList := by simp
  rw [components, htext, splitOn_append_separator, List.map_append, ← components, ← components]

theorem exists_eq_append_slash {directory : String} (h : Text.endsWith "/" directory = true) :
    ∃ before, directory = before ++ "/" := by
  obtain ⟨before, hbefore⟩ := List.isSuffixOf_iff_suffix.mp h
  refine ⟨String.ofList before, ?_⟩
  rw [← String.toList_inj, ← hbefore]
  simp

/-! ### Collapsing in two parts -/

theorem collapseStep_skip {part : String} (h : part = "" ∨ part = ".") :
    collapseStep rooted kept part = kept := by
  rw [collapseStep, if_pos (by simpa using h)]

theorem collapse_append (parts parts' : List String) :
    collapse rooted (parts ++ parts')
      = parts'.foldl (collapseStep rooted) (collapse rooted parts) := by
  rw [collapse_eq_foldl, collapse_eq_foldl, List.foldl_append]

/-- Empty components and points make no difference. -/
theorem foldl_collapseStep_filter (parts : List String) :
    (parts.filter fun c => c != "" && c != ".").foldl (collapseStep rooted) kept
      = parts.foldl (collapseStep rooted) kept := by
  induction parts generalizing kept with
  | nil => rfl
  | cons part parts ih =>
    rw [List.filter_cons, List.foldl_cons]
    split_ifs with hkept
    · rw [List.foldl_cons, ih]
    · have hskip : part = "" ∨ part = "." := by
        by_contra hpart
        rw [not_or] at hpart
        exact hkept (by simpa using hpart)
      rw [ih, collapseStep_skip hskip]

/-- The components of a path that is seen from a directory collapse as if those of the directory had
been collapsed before. -/
theorem collapse_components_join {directory p : String} (hdirectory : directory ≠ "")
    (hp : Text.beginsWith "/" p = false) :
    collapse rooted (components (join directory p))
      = (components p).foldl (collapseStep rooted) (collapse rooted (components directory)) := by
  have hnonempty : directory.isEmpty = false := by simpa using hdirectory
  rw [join, hp, if_neg Bool.false_ne_true, hnonempty, Bool.false_or]
  split_ifs with hslash
  · -- the slash at the end of the directory makes an empty component, which is left out
    obtain ⟨before, rfl⟩ := exists_eq_append_slash hslash
    have hlast : components (before ++ "/") = components before ++ [""] := by
      rw [← String.append_empty (s := before ++ "/"), components_append_slash]
      rfl
    rw [components_append_slash, hlast, collapse_append, collapse_append, List.foldl_cons,
      List.foldl_nil, collapseStep_skip (Or.inl rfl)]
  · rw [components_append_slash, collapse_append]

/-- With nothing above the first component, `..` takes away the last one that is kept, if any. -/
theorem collapseStep_up_rooted (hkept : ".." ∉ kept) :
    collapseStep true kept ".." = kept.dropLast := by
  rw [collapseStep, if_neg (by decide), if_neg (by decide)]
  cases hlast : kept.getLast? with
  | none =>
    rw [List.getLast?_eq_none_iff.mp hlast]
    rfl
  | some last =>
    exact if_neg (ne_of_mem_of_not_mem (List.mem_of_getLast? hlast) hkept)

theorem mem_collapseStep {name part : String} (hkept : ".." ∉ kept)
    (h : name ∈ collapseStep true kept part) :
    name ∈ kept ∨ name = part ∧ name ≠ "" ∧ name ≠ "." ∧ name ≠ ".." := by
  by_cases hskip : part = "" ∨ part = "."
  · rw [collapseStep_skip hskip] at h
    exact Or.inl h
  by_cases hup : part = ".."
  · rw [hup, collapseStep_up_rooted hkept] at h
    exact Or.inl (List.dropLast_subset _ h)
  · rw [not_or] at hskip
    have hstep : collapseStep true kept part = kept ++ [part] := by
      simp [collapseStep, hskip.1, hskip.2, hup]
    rw [hstep, List.mem_append, List.mem_singleton] at h
    exact h.imp_right fun hname => ⟨hname, hname ▸ ⟨hskip.1, hskip.2, hup⟩⟩

/-- What is kept of components are names if there is nothing above the first. -/
theorem isName_of_mem_foldl (hkept : ∀ name ∈ kept, IsName name)
    (hparts : ∀ part ∈ parts, '/' ∉ part.toList) :
    ∀ name ∈ parts.foldl (collapseStep true) kept, IsName name := by
  induction parts generalizing kept with
  | nil => exact hkept
  | cons part parts ih =>
    rw [List.foldl_cons]
    refine ih (fun name hname => ?_) fun p hp => hparts p (List.mem_cons_of_mem _ hp)
    have hup : ".." ∉ kept := fun hmem => (hkept _ hmem).2.2 rfl
    rcases mem_collapseStep hup hname with hname | ⟨rfl, hne, hpoint, hpoints⟩
    · exact hkept name hname
    · exact ⟨⟨hne, hparts name List.mem_cons_self⟩, hpoint, hpoints⟩

/-! ### Slashes at the beginning -/

/-- The first three characters tell how many slashes a path keeps at its beginning. -/
theorem leadingSlashes_eq (p : String) :
    leadingSlashes p = if p.toList[0]? = some '/' then
      if p.toList[1]? = some '/' ∧ p.toList[2]? ≠ some '/' then 2 else 1 else 0 := by
  unfold leadingSlashes
  split
  case h_1 rest hthree => simp [hthree]
  case h_2 rest hnone htwo =>
    have hthird : rest[0]? ≠ some '/' := by
      intro h
      cases rest <;> simp_all
    simp [htwo, hthird]
  case h_3 rest hnone hnone' hone =>
    have hsecond : rest[0]? ≠ some '/' := by
      intro h
      cases rest <;> simp_all
    simp [hone, hsecond]
  case h_4 hnone hnone' hnone'' =>
    have hfirst : p.toList[0]? ≠ some '/' := by
      intro h
      cases hp : p.toList <;> simp_all
    simp [hfirst]

/-- What is behind a path adds no slash to its beginning, unless the path ends in a slash and what
is behind it begins with one. -/
theorem leadingSlashes_append {p q : String} (hp : 0 < leadingSlashes p)
    (h : Text.endsWith "/" p = true → Text.beginsWith "/" q = false) :
    leadingSlashes (p ++ q) = leadingSlashes p := by
  have hfirst : p.toList[0]? = some '/' := by
    rw [leadingSlashes_eq] at hp
    by_contra hno
    simp [hno] at hp
  have hbehind : ∀ init, p.toList = init ++ ['/'] → q.toList[0]? ≠ some '/' := by
    intro init hinit hq
    have hends : Text.endsWith "/" p = true := by
      rw [Text.endsWith, hinit]
      simp
    have hbegins := h hends
    cases hcs : q.toList with
    | nil => simp [hcs] at hq
    | cons c cs => simp_all [Text.beginsWith]
  rw [leadingSlashes_eq, leadingSlashes_eq, String.toList_append]
  rcases hcs : p.toList with _ | ⟨a, _ | ⟨b, _ | ⟨c, rest⟩⟩⟩
  · simp [hcs] at hfirst
  · obtain rfl : a = '/' := by simpa [hcs] using hfirst
    have hq := hbehind [] hcs
    simp [hq]
  · by_cases hb : b = '/'
    · subst hb
      have hq := hbehind [a] hcs
      simp [hq]
    · simp [hb]
  · simp

theorem leadingSlashes_join {directory p : String} (hdirectory : 0 < leadingSlashes directory)
    (hp : Text.beginsWith "/" p = false) :
    leadingSlashes (join directory p) = leadingSlashes directory := by
  have hnonempty : directory.isEmpty = false := by
    rw [Bool.eq_false_iff]
    intro hempty
    rw [String.isEmpty_iff.mp hempty] at hdirectory
    exact absurd hdirectory (by decide)
  rw [join, hp, if_neg Bool.false_ne_true, hnonempty, Bool.false_or]
  split_ifs with hslash
  · exact leadingSlashes_append hdirectory fun _ => hp
  · rw [String.append_assoc]
    exact leadingSlashes_append hdirectory fun h => absurd h hslash

/-- Absolute paths with the same slashes at the beginning and the same components that are kept are
normalized to the same path. -/
theorem normalize_congr {p q : String} (hq : 0 < leadingSlashes q)
    (hslashes : leadingSlashes p = leadingSlashes q)
    (hparts : collapse true (components p) = collapse true (components q)) :
    normalize p = normalize q := by
  have hrooted : decide (leadingSlashes q > 0) = true := decide_eq_true hq
  unfold normalize
  dsimp only
  rw [hslashes, hrooted, hparts]

end PathText

namespace Path

open PathText

/-! ### Paths that are relative -/

theorem isPlain_of_mem_ofText {p name : String} (h : name ∈ (ofText p).parts) : IsPlain name := by
  obtain ⟨hmem, hkept⟩ := List.mem_filter.mp h
  refine isPlain_of_mem_components hmem fun hempty => ?_
  simp [hempty] at hkept

theorem collapse_ofText (rooted : Bool) (p : String) :
    collapse rooted (ofText p).parts = collapse rooted (components p) :=
  foldl_collapseStep_filter _

section Relative

variable {parts : List String} (hparts : ∀ n ∈ parts, IsPlain n)
include hparts

theorem toText_relative :
    toText ⟨0, parts⟩ = if parts = [] then "." else ofComponents parts := by
  have htext : String.ofList (List.replicate 0 '/') ++ ofComponents parts = ofComponents parts := by
    simp
  rw [toText, htext]
  split_ifs with hempty hnil hnil
  · rfl
  · exact absurd (String.isEmpty_iff.mp hempty) (ofComponents_ne_empty hnil hparts)
  · rw [hnil] at hempty
    exact absurd rfl hempty
  · rfl

theorem beginsWith_slash_toText : Text.beginsWith "/" (toText ⟨0, parts⟩) = false := by
  rw [toText_relative hparts]
  split_ifs with hnil
  · rfl
  · exact beginsWith_slash_ofComponents hparts hnil

/-- The text of a relative path leads on as its components do. -/
theorem foldl_components_toText {rooted : Bool} {kept : List String} :
    (components (toText ⟨0, parts⟩)).foldl (collapseStep rooted) kept
      = parts.foldl (collapseStep rooted) kept := by
  rw [toText_relative hparts]
  split_ifs with hnil
  · subst hnil
    have hpoint : components "." = ["."] := by decide
    rw [hpoint, List.foldl_cons, List.foldl_nil, List.foldl_nil, collapseStep_skip (Or.inr rfl)]
  · rw [components_ofComponents hnil fun n hn => (hparts n hn).2]

/-- A relative path that leads on from where the root leads to where the file leads denotes the
file. -/
theorem normalize_join_toText {file root : String} (hroot : 0 < leadingSlashes root)
    (hfile : leadingSlashes file = leadingSlashes root)
    (hleads : parts.foldl (collapseStep true) (collapse true (ofText root).parts)
      = collapse true (ofText file).parts) :
    normalize (PathText.join root (toText ⟨0, parts⟩)) = normalize file := by
  have hbegins := beginsWith_slash_toText hparts
  have hne : root ≠ "" := by
    rintro rfl
    exact absurd hroot (by decide)
  refine normalize_congr (hfile ▸ hroot) ?_ ?_
  · rw [leadingSlashes_join hroot hbegins, hfile]
  · rw [collapse_components_join hne hbegins, foldl_components_toText hparts, ← collapse_ofText,
      hleads, collapse_ofText]

end Relative

/-! ### The two ways from the root to a file -/

theorem exists_of_relativeTo? {p directory rest : Path} (h : p.relativeTo? directory = some rest) :
    ∃ down, rest = ⟨0, down⟩ ∧ p.parts = directory.parts ++ down := by
  unfold relativeTo? at h
  split_ifs at h with hprefix
  obtain ⟨down, hdown⟩ := List.isPrefixOf_iff_prefix.mp (Bool.and_eq_true_iff.mp hprefix).2
  refine ⟨down, ?_, hdown.symm⟩
  rw [← Option.some.inj h, ← hdown, List.drop_left]

theorem commonPrefix_prefix_left (as : List String) : ∀ bs, commonPrefix as bs <+: as := by
  induction as with
  | nil => intro bs; cases bs <;> exact List.nil_prefix
  | cons a as ih =>
    intro bs
    cases bs with
    | nil => exact List.nil_prefix
    | cons b bs =>
      rw [commonPrefix]
      split_ifs
      · exact List.cons_prefix_cons.mpr ⟨rfl, ih bs⟩
      · exact List.nil_prefix

theorem commonPrefix_comm (as : List String) : ∀ bs, commonPrefix as bs = commonPrefix bs as := by
  induction as with
  | nil => intro bs; cases bs <;> rfl
  | cons a as ih =>
    intro bs
    cases bs with
    | nil => rfl
    | cons b bs =>
      rw [commonPrefix, commonPrefix, ih bs]
      by_cases h : a = b
      · subst h; rfl
      · rw [if_neg h, if_neg (Ne.symm h)]

/-- The way from a directory to a path goes up to where both have the same names behind them, and
then down. -/
theorem exists_wayTo_eq (here : List String) (p directory : Path) :
    ∃ shared up down, absoluteParts here directory = shared ++ up ∧
      absoluteParts here p = shared ++ down ∧
      wayTo here p directory = ⟨0, List.replicate up.length ".." ++ down⟩ := by
  generalize hshared : commonPrefix (absoluteParts here directory) (absoluteParts here p) = shared
  have hup : shared <+: absoluteParts here directory := hshared ▸ commonPrefix_prefix_left _ _
  have hdown : shared <+: absoluteParts here p := by
    rw [← hshared, commonPrefix_comm]
    exact commonPrefix_prefix_left _ _
  obtain ⟨up, hup⟩ := hup
  obtain ⟨down, hdown⟩ := hdown
  refine ⟨shared, up, down, hup.symm, hdown.symm, ?_⟩
  unfold wayTo
  dsimp only
  rw [hshared, ← hup, ← hdown, List.length_append, Nat.add_sub_cancel_left, List.drop_left]

theorem absoluteParts_ofText {here : List String} {p : String} (hp : 0 < leadingSlashes p) :
    absoluteParts here (ofText p) = collapse true (ofText p).parts := by
  have habsolute : (ofText p).isAbsolute = true := decide_eq_true hp
  rw [absoluteParts, habsolute, if_pos rfl]

theorem isName_of_mem_collapse_ofText {p name : String}
    (h : name ∈ collapse true (ofText p).parts) : IsName name := by
  rw [collapse_eq_foldl] at h
  exact isName_of_mem_foldl (fun n hn => absurd hn List.not_mem_nil)
    (fun part hpart => (isPlain_of_mem_ofText hpart).2) name h

section Ways

variable {here : List String} {file root : String} (hroot : 0 < leadingSlashes root)
  (hfile : leadingSlashes file = leadingSlashes root)
include hroot hfile

/-- What the spelling of a file has behind that of the root denotes the file. -/
theorem normalize_join_relativeTo? {rest : Path}
    (h : (ofText file).relativeTo? (ofText root) = some rest) :
    normalize (PathText.join root rest.toText) = normalize file := by
  obtain ⟨down, rfl, hparts⟩ := exists_of_relativeTo? h
  have hdown : ∀ n ∈ down, IsPlain n := fun n hn =>
    isPlain_of_mem_ofText (p := file) (hparts ▸ List.mem_append_right _ hn)
  refine normalize_join_toText hdown hroot hfile ?_
  rw [hparts, collapse_append]

/-- The way from the root to a file denotes the file. -/
theorem normalize_join_wayTo :
    normalize (PathText.join root (wayTo here (ofText file) (ofText root)).toText)
      = normalize file := by
  obtain ⟨shared, up, down, hstart, htarget, hway⟩ :=
    exists_wayTo_eq here (ofText file) (ofText root)
  rw [absoluteParts_ofText hroot] at hstart
  rw [absoluteParts_ofText (hfile ▸ hroot)] at htarget
  have hup : ∀ n ∈ up, IsName n := fun n hn =>
    isName_of_mem_collapse_ofText (p := root) (hstart ▸ List.mem_append_right _ hn)
  have hdown : ∀ n ∈ down, IsName n := fun n hn =>
    isName_of_mem_collapse_ofText (p := file) (htarget ▸ List.mem_append_right _ hn)
  have hplain : ∀ n ∈ List.replicate up.length ".." ++ down, IsPlain n := by
    intro n hn
    rcases List.mem_append.mp hn with hn | hn
    · rw [List.eq_of_mem_replicate hn]
      decide
    · exact (hdown n hn).1
  rw [hway]
  refine normalize_join_toText hplain hroot hfile ?_
  -- each step up takes away a name of the root that the file does not share
  rw [hstart, htarget, List.foldl_append, foldl_collapseStep_up hup,
    foldl_collapseStep_names hdown]

theorem normalize_join_inRepository (here : List String) :
    normalize (PathText.join root (inRepository here (ofText file) (ofText root)))
      = normalize file := by
  unfold inRepository
  split
  · next rest hrest => exact normalize_join_relativeTo? hroot hfile hrest
  · exact normalize_join_wayTo hroot hfile

end Ways

/-- **Paths in a repository denote the files that they name.**  Seen from the root and normalized,
the path of a file in a repository is the normalized path of the file; and so are both what the
spelling of the file has behind that of the root, if it begins with that, and the way from the root
to the file, whichever of the two is taken.  Hence files with different normalized paths have
different paths in the repository.  The paths of the files and of the root are absolute.  They have
to keep the same slashes at their beginning, as they do if none of them begins with two slashes: a
path with two of them is never seen from one with a single slash. -/
theorem inRepository_denotes (here : List String) {file root : String}
    (hroot : 0 < leadingSlashes root) (hfile : leadingSlashes file = leadingSlashes root) :
    normalize (PathText.join root (inRepository here (ofText file) (ofText root)))
      = normalize file ∧
    (∀ rest, (ofText file).relativeTo? (ofText root) = some rest →
      normalize (PathText.join root rest.toText) = normalize file) ∧
    normalize (PathText.join root (wayTo here (ofText file) (ofText root)).toText)
      = normalize file ∧
    ∀ other, leadingSlashes other = leadingSlashes root → normalize other ≠ normalize file →
      inRepository here (ofText other) (ofText root)
        ≠ inRepository here (ofText file) (ofText root) := by
  have hdenotes := normalize_join_inRepository hroot hfile here
  refine ⟨hdenotes, fun rest => normalize_join_relativeTo? hroot hfile,
    normalize_join_wayTo hroot hfile, fun other hother hne hsame => hne ?_⟩
  rw [← normalize_join_inRepository hroot hother here, hsame, hdenotes]

/-- A root that is spelled with a detour. -/
def detouredRoot : String := "/work/repo/../checkout"

/-- A file in it whose spelling parts from that of the root before the detour. -/
def innerFile : String := "/work/checkout/src/../a.js"

/-- A file beside it whose spelling begins with that of the root. -/
def outerFile : String := "/work/repo/../checkout/../b.js"

/-- The one path is the way from the root, the other one what is spelled behind it. -/
theorem inRepository_denotes_detour :
    inRepository [] (ofText innerFile) (ofText detouredRoot) = "a.js" ∧
    inRepository [] (ofText outerFile) (ofText detouredRoot) = "../b.js" ∧
    0 < leadingSlashes detouredRoot ∧
    leadingSlashes innerFile = leadingSlashes detouredRoot ∧
    leadingSlashes outerFile = leadingSlashes detouredRoot ∧
    normalize (PathText.join detouredRoot "a.js") = normalize innerFile ∧
    normalize (PathText.join detouredRoot "../b.js") = normalize outerFile ∧
    inRepository [] (ofText outerFile) (ofText detouredRoot)
      ≠ inRepository [] (ofText innerFile) (ofText detouredRoot) := by
  have hroot : 0 < leadingSlashes detouredRoot := by decide +kernel
  have hinner : leadingSlashes innerFile = leadingSlashes detouredRoot := by decide +kernel
  have houter : leadingSlashes outerFile = leadingSlashes detouredRoot := by decide +kernel
  have hway : inRepository [] (ofText innerFile) (ofText detouredRoot) = "a.js" := by
    decide +kernel
  have hspelled : inRepository [] (ofText outerFile) (ofText detouredRoot) = "../b.js" := by
    decide +kernel
  obtain ⟨hdenotes, -, -, hdiffer⟩ := inRepository_denotes [] hroot hinner
  obtain ⟨hdenotes', -⟩ := inRepository_denotes [] hroot houter
  have hne : inRepository [] (ofText outerFile) (ofText detouredRoot)
      ≠ inRepository [] (ofText innerFile) (ofText detouredRoot) :=
    hdiffer _ houter (by decide +kernel)
  rw [hway] at hdenotes
  rw [hspelled] at hdenotes'
  exact ⟨hway, hspelled, hroot, hinner, houter, hdenotes, hdenotes', hne⟩

end Path

end CodeAtlas
