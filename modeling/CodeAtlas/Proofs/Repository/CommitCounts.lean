import CodeAtlas.Engine.Standard
import CodeAtlas.Proofs.Engine.Step
import Mathlib.Data.List.Basic

/-!
# Commit counts of files

The history of a repository is counted path by path, but under the path with slashes for its
backslashes (`ofSource_commits`), whereas a file is looked up under its path as it is.  So a file
whose path has a backslash is never found (`changes_eq_zero`), and the commits of all paths that
only differ in that are counted together.  This is the only way for a count to be wrong
(`applyHistory_counts`).
-/

namespace CodeAtlas

namespace CommitCounts

variable {counts : Counts} {path : String} {commits : List (List String)}

/-! ### Counting -/

theorem of_cons (q : String) (n : Int) (rest : Counts) (path : String) :
    of ((q, n) :: rest) path = if q = path then n else of rest path := by
  by_cases hq : q = path
  · simp [of, hq]
  · simp [of, hq]

theorem of_add (p : String) (counts : Counts) (path : String) :
    of (add p counts) path = of counts path + if p = path then 1 else 0 := by
  induction counts with
  | nil => exact (of_cons p 1 [] path).trans (Int.zero_add _).symm
  | cons entry rest ih =>
    obtain ⟨q, n⟩ := entry
    rw [add]
    split_ifs with hq hp hp
    · rw [of_cons, of_cons, if_pos (hq.trans hp), if_pos (hq.trans hp)]
    · rw [of_cons, of_cons, if_neg fun h => hp (hq ▸ h), if_neg fun h => hp (hq ▸ h), Int.add_zero]
    · rw [of_cons, of_cons, if_neg fun h => hq (h.trans hp.symm),
        if_neg fun h => hq (h.trans hp.symm), ih, if_pos hp]
    · rw [of_cons, of_cons, ih, if_neg hp, Int.add_zero, Int.add_zero]

/-- Counts one path of a commit. -/
def countPath (counts : Counts) (p : String) : Counts := add (withSlashes p) counts

theorem of_foldl_countPath (paths : List String) (counts : Counts) (path : String) :
    of (paths.foldl countPath counts) path
      = of counts path + paths.countP fun p => withSlashes p = path := by
  induction paths generalizing counts with
  | nil => exact (Int.add_zero _).symm
  | cons p paths ih =>
    rw [List.foldl_cons, ih, countPath, of_add, List.countP_cons]
    by_cases hp : withSlashes p = path
    · simp only [hp, if_true, decide_true]
      omega
    · simp only [hp, if_false, decide_false, Bool.false_eq_true]
      omega

/-- When all commits can be told, their paths are counted one after the other. -/
theorem ofCommits_eq (counts : Counts) (commits : List (List String)) :
    ofCommits counts (commits.map .ok) = .ok (commits.flatten.foldl countPath counts) := by
  induction commits generalizing counts with
  | nil => rfl
  | cons paths commits ih =>
    rw [List.flatten_cons, List.foldl_append]
    exact ih _

/-- The latest commits, or all of them. -/
def latest (maxCommits : Option Nat) (commits : List (List String)) : List (List String) :=
  maxCommits.elim commits commits.take

/-- How many changes are counted for a path. -/
def changes (commits : List (List String)) (path : String) : Nat :=
  commits.flatten.countP fun p => withSlashes p = path

theorem ofSource_commits (maxCommits : Option Nat) (revision : String)
    (commits : List (List String)) :
    ∃ counts : Counts,
      ofSource ⟨maxCommits.map Int.ofNat, revision⟩ (.commits (commits.map .ok)) = .ok counts ∧
      ∀ path, of counts path = changes (latest maxCommits commits) path := by
  have hwalked : walked ⟨maxCommits.map Int.ofNat, revision⟩ (commits.map .ok)
      = (latest maxCommits commits).map .ok := by
    cases maxCommits with
    | none => rfl
    | some n => exact (List.map_take).symm
  refine ⟨(latest maxCommits commits).flatten.foldl countPath [], ?_, fun path => ?_⟩
  · rw [ofSource, hwalked, ofCommits_eq]
  · rw [of_foldl_countPath]
    exact Int.zero_add _

/-! ### Backslashes -/

theorem toList_withSlashes (p : String) :
    (withSlashes p).toList = p.toList.map fun c => if c = '\\' then '/' else c :=
  String.toList_ofList

theorem not_mem_withSlashes (p : String) : '\\' ∉ (withSlashes p).toList := by
  rw [toList_withSlashes, List.mem_map]
  rintro ⟨c, -, hc⟩
  split_ifs at hc with hslash
  · exact absurd hc (by decide)
  · exact hslash hc

theorem withSlashes_eq_self (h : '\\' ∉ path.toList) : withSlashes path = path := by
  rw [← String.toList_inj, toList_withSlashes]
  calc path.toList.map (fun c => if c = '\\' then '/' else c)
    _ = path.toList.map id := List.map_congr_left fun c hc => if_neg (ne_of_mem_of_not_mem hc h)
    _ = path.toList := List.map_id _

/-- No change is counted for a path with a backslash. -/
theorem changes_eq_zero (h : '\\' ∈ path.toList) : changes commits path = 0 := by
  refine List.countP_eq_zero.mpr fun p _ hp => ?_
  rw [decide_eq_true_eq] at hp
  exact not_mem_withSlashes p (hp ▸ h)

/-! ### Changes and commits -/

/-- How many commits change a path. -/
def commitsOf (commits : List (List String)) (path : String) : Nat := commits.countP (path ∈ ·)

/-- When no commit lists a path twice, its commits are the places at which it is listed. -/
theorem commitsOf_eq_count (h : ∀ paths ∈ commits, paths.Nodup) (path : String) :
    commitsOf commits path = commits.flatten.count path := by
  induction commits with
  | nil => rfl
  | cons paths commits ih =>
    have hrest := ih fun paths' hpaths' => h paths' (List.mem_cons_of_mem _ hpaths')
    have hnodup := h paths List.mem_cons_self
    rw [commitsOf] at hrest ⊢
    rw [List.countP_cons, List.flatten_cons, List.count_append, hrest, hnodup.count, Nat.add_comm]
    simp only [decide_eq_true_eq]

/-- One test implies the other, so as many elements pass the one as the other only if the same
elements do. -/
theorem countP_eq_countP_iff {α : Type} {p q : α → Bool} {xs : List α}
    (h : ∀ x ∈ xs, p x = true → q x = true) :
    xs.countP p = xs.countP q ↔ ∀ x ∈ xs, q x = true → p x = true := by
  constructor
  · intro hcount x hx hq
    have hboth : xs.filter p = (xs.filter q).filter p := by
      rw [List.filter_filter]
      refine List.filter_congr fun y hy => ?_
      cases hp : p y with
      | false => rfl
      | true => exact (h y hy hp).symm
    -- those that pass both are a part of those that pass the second, and as many
    have hall : (xs.filter q).filter p = xs.filter q := by
      refine List.filter_sublist.eq_of_length ?_
      rw [← hboth, ← List.countP_eq_length_filter, ← List.countP_eq_length_filter, hcount]
    have hmem : x ∈ (xs.filter q).filter p := by
      rw [hall]
      exact List.mem_filter.mpr ⟨hx, hq⟩
    exact (List.mem_filter.mp hmem).2
  · intro hqp
    refine List.countP_congr fun x hx => ⟨h x hx, hqp x hx⟩

/-- The changes that are counted for a path are its commits exactly if among the listed paths it is
the only one that reads so with slashes for backslashes, and reads so itself if it is one of them.
-/
theorem changes_eq_commitsOf_iff (h : ∀ paths ∈ commits, paths.Nodup) (path : String) :
    changes commits path = commitsOf commits path
      ↔ ∀ p ∈ commits.flatten, withSlashes p = path ↔ p = path := by
  rw [commitsOf_eq_count h]
  by_cases hslash : '\\' ∈ path.toList
  · -- No path reads like this one, so nothing may be listed under it.
    have hne : ∀ p, withSlashes p ≠ path := fun p hp => not_mem_withSlashes p (hp ▸ hslash)
    rw [changes_eq_zero hslash, eq_comm, List.count_eq_zero]
    constructor
    · intro hlisted p hp
      exact ⟨fun heq => absurd heq (hne p), fun heq => absurd (heq ▸ hp) hlisted⟩
    · exact fun hall hlisted => hne path ((hall path hlisted).mpr rfl)
  · have hself : ∀ p, p = path → withSlashes p = path := by
      rintro p rfl
      exact withSlashes_eq_self hslash
    have hcount : commits.flatten.count path = commits.flatten.countP fun p => p = path :=
      List.countP_congr fun p _ => by rw [beq_iff_eq, decide_eq_true_eq]
    -- The path itself is always counted, so the counts agree if no other path is.
    have himp : ∀ p ∈ commits.flatten, decide (p = path) = true →
        decide (withSlashes p = path) = true := by
      intro p _ hp
      rw [decide_eq_true_eq] at hp ⊢
      exact hself p hp
    rw [hcount, eq_comm, changes, countP_eq_countP_iff himp]
    simp only [decide_eq_true_eq]
    exact forall₂_congr fun p _ => ⟨fun hp => ⟨hp, hself p⟩, fun hp => hp.mp⟩

end CommitCounts

namespace Engine

open RunStep CommitCounts

/-- **Files get the numbers of their commits, unless backslashes get in the way.**  When the history
of a repository can be told, every file gets the number of changes that are counted for its path
among the latest commits.  This is the number of those commits that list the path exactly if no
listed path other than the file's own reads like it with slashes for backslashes, and its own does.
A file without a backslash in its path never gets too small a number, and one with a backslash
always gets zero. -/
theorem applyHistory_counts {c : Collaborators} {options : RunOptions}
    {source : Path → HistorySource} {root : Path} {commits : List (List String)}
    {maxCommits : Option Nat} {revision : String}
    (hhistory : c.history
      = some fun root => ofSource ⟨maxCommits.map Int.ofNat, revision⟩ (source root))
    (huses : options.usesHistory = true) (hsource : source root = .commits (commits.map .ok))
    (hnodup : ∀ paths ∈ commits, paths.Nodup) (files : List FileRecord) (s : RunState) :
    let walked := latest maxCommits commits
    (applyHistory c options root files).run s
      = (.ok (files.map fun f => { f with commitCount := some (changes walked f.path) }), s) ∧
    ∀ path,
      (changes walked path = commitsOf walked path
        ↔ ∀ p ∈ walked.flatten, withSlashes p = path ↔ p = path) ∧
      ('\\' ∉ path.toList → commitsOf walked path ≤ changes walked path) ∧
      ('\\' ∈ path.toList → changes walked path = 0) := by
  intro walked
  have hwalked : ∀ paths ∈ walked, paths.Nodup := by
    intro paths hpaths
    refine hnodup paths ?_
    cases maxCommits with
    | none => exact hpaths
    | some n => exact List.mem_of_mem_take hpaths
  refine ⟨?_, fun path => ⟨changes_eq_commitsOf_iff hwalked path, fun hslash => ?_,
    changes_eq_zero⟩⟩
  · obtain ⟨counts, hcounts, hof⟩ := ofSource_commits maxCommits revision commits
    have hfiles : withCounts counts files
        = files.map fun f => { f with commitCount := some (changes walked f.path : Int) } :=
      List.map_congr_left fun f _ => by rw [hof]
    rw [applyHistory, hhistory]
    simp only [huses, Bool.not_true, Bool.false_eq_true, if_false, hsource, hcounts, hfiles]
    rfl
  · rw [commitsOf_eq_count hwalked]
    refine List.countP_mono_left fun p _ hp => ?_
    rw [beq_iff_eq] at hp
    rw [hp, decide_eq_true_eq]
    exact withSlashes_eq_self hslash

/-- Collaborators for a repository with the given commits, of which the latest are counted. -/
def recounting (maxCommits : Option Nat) (commits : List (List String)) : Collaborators :=
  standard default default [] 10 (.ok default)
    (some fun _ => ofSource ⟨maxCommits.map Int.ofNat, "HEAD"⟩ (.commits (commits.map .ok))) default

/-- A file of which nothing but the path and perhaps the number of commits is known. -/
def countedFile (path : String) (commitCount : Option Int) : FileRecord :=
  { (default : FileRecord) with path, commitCount }

/-- A file that two of the latest three commits change.  Another one of them lists a path with a
backslash, which does not read like that of the file. -/
theorem applyHistory_counts_latestThree :
    let commits := [["src/a.js", "src/b.js"], ["old\\a.js"], ["src/a.js"], ["src/a.js"]]
    (∀ paths ∈ commits, paths.Nodup) ∧
    (applyHistory (recounting (some 3) commits) ⟨1, true, false⟩ default
        [countedFile "src/a.js" none]).run .start
      = (.ok [countedFile "src/a.js" (some 2)], .start) ∧
    changes (latest (some 3) commits) "src/a.js" = commitsOf (latest (some 3) commits) "src/a.js" ∧
    commitsOf (latest (some 3) commits) "src/a.js" = 2 := by
  intro commits
  have hnodup : ∀ paths ∈ commits, paths.Nodup := by decide
  have hcounts := @applyHistory_counts (recounting (some 3) commits) ⟨1, true, false⟩
    (fun _ => .commits (commits.map .ok)) default commits (some 3) "HEAD" rfl rfl rfl hnodup
    [countedFile "src/a.js" none] .start
  exact ⟨hnodup, hcounts.1, (hcounts.2 "src/a.js").1.mpr (by decide), by decide⟩

/-- Two files whose paths differ in a backslash, each changed by one commit: both commits are
counted for the one, and none for the other. -/
theorem confusedFiles_miscounted :
    let commits := [["a\\b.js"], ["a/b.js"]]
    (applyHistory (recounting none commits) ⟨1, true, false⟩ default
        [countedFile "a/b.js" none, countedFile "a\\b.js" none]).run .start
      = (.ok [countedFile "a/b.js" (some 2), countedFile "a\\b.js" (some 0)], .start) ∧
    commitsOf commits "a/b.js" = 1 ∧ commitsOf commits "a\\b.js" = 1 :=
  ⟨rfl, by decide, by decide⟩

end Engine

end CodeAtlas
