import CodeAtlas.Insight.Basic
import CodeAtlas.Proofs.Complexity.Debt
import CodeAtlas.Proofs.SortedTexts
import Mathlib.Data.Prod.Lex
import Mathlib.Data.List.Sort
import Mathlib.Data.String.Basic

/-!
# The files that stand out

Insights name the most complex files, those of them that are above a threshold, and the files that
are changed most.  All three lists begin a ranking (`IsRanking`): a higher rank comes first, and
files of one rank are in the order of their paths.  Rankings of the same files differ at most in
files that have both the rank and the path in common, and an entry of a list has nothing else of a
file in it (`IsRanking.map_take_eq`), so the order in which files are given does not matter.

The lists are made in different ways: one is cut off after the files above the threshold are taken
out, the other before.  In a ranking those files are the first, so both ways lead to the same
(`take_filter_of_pairwise`), and `rankings_agree` says how the lists, and the technical debt, belong
together.
-/

namespace CodeAtlas.Insights

variable {rank : FileRecord → Int} {files others ranking other : List FileRecord}

/-! ### Rankings -/

/-- The first file has the higher rank, or the same rank and a path that is not greater. -/
def Precedes (rank : FileRecord → Int) (a b : FileRecord) : Prop :=
  rank b < rank a ∨ rank a = rank b ∧ a.path ≤ b.path

/-- The list has the given files, those that precede others first. -/
structure IsRanking (rank : FileRecord → Int) (files ranking : List FileRecord) : Prop where
  perm : ranking.Perm files
  sorted : ranking.Pairwise (Precedes rank)

/-- What decides on the place of a file. -/
def standing (rank : FileRecord → Int) (f : FileRecord) : ℤ ×ₗ String := toLex (-rank f, f.path)

theorem standing_le_iff {a b : FileRecord} :
    standing rank a ≤ standing rank b ↔ Precedes rank a b := by
  rw [standing, standing, Prod.Lex.toLex_le_toLex, neg_lt_neg_iff, neg_inj, Precedes]

theorem isRanking_ranked (rank : FileRecord → Int) (files : List FileRecord) :
    IsRanking rank files (ranked rank files) := by
  have hkey : ∀ a b, (rank b < rank a || (rank a = rank b && a.path ≤ b.path)) = true
      ↔ standing rank a ≤ standing rank b := by
    intro a b
    rw [standing_le_iff, Precedes, Bool.or_eq_true, Bool.and_eq_true]
    simp only [decide_eq_true_eq]
  have hsorted := pairwise_key_le_mergeSort hkey files
  exact ⟨List.mergeSort_perm _ _, hsorted.imp standing_le_iff.mp⟩

namespace IsRanking

/-- Leaving files out leaves the others in their order. -/
theorem filter (h : IsRanking rank files ranking) (keep : FileRecord → Bool) :
    IsRanking rank (files.filter keep) (ranking.filter keep) :=
  ⟨h.perm.filter keep, h.sorted.filter keep⟩

/-- Two rankings of the same files have the same ranks and paths at the same places. -/
theorem map_standing_eq (h : IsRanking rank files ranking) (h' : IsRanking rank others other)
    (hperm : files.Perm others) : ranking.map (standing rank) = other.map (standing rank) := by
  have hsorted : ∀ {ranking files}, IsRanking rank files ranking →
      (ranking.map (standing rank)).Pairwise (· ≤ ·) := by
    intro ranking files h
    exact List.pairwise_map.mpr (h.sorted.imp standing_le_iff.mpr)
  have hperms : ranking.Perm other := h.perm.trans (hperm.trans h'.perm.symm)
  exact (hperms.map _).eq_of_pairwise' (hsorted h) (hsorted h')

/-- So what is said of the ranks and paths of the first files is the same. -/
theorem map_take_eq {α : Type} (entry : String → Int → α) (h : IsRanking rank files ranking)
    (h' : IsRanking rank others other) (hperm : files.Perm others) (n : Nat) :
    (ranking.take n).map (fun f => entry f.path (rank f))
      = (other.take n).map fun f => entry f.path (rank f) := by
  have hentry : (fun f => entry f.path (rank f))
      = (fun k => entry (ofLex k).2 (-(ofLex k).1)) ∘ standing rank := by
    funext f
    show entry f.path (rank f) = entry f.path (- -rank f)
    rw [neg_neg]
  have htake : ∀ xs : List FileRecord,
      (xs.take n).map (standing rank) = (xs.map (standing rank)).take n := fun _ => List.map_take
  rw [hentry, ← List.map_map, ← List.map_map, htake, htake, h.map_standing_eq h' hperm]

end IsRanking

/-- If elements that pass a test come before those that do not, then it does not matter whether a
list is cut off before or after the test. -/
theorem take_filter_of_pairwise {α : Type} {keep : α → Bool} {xs : List α}
    (h : xs.Pairwise fun x y => keep y = true → keep x = true) (n : Nat) :
    (xs.filter keep).take n = (xs.take n).filter keep := by
  induction xs generalizing n with
  | nil => simp
  | cons x xs ih =>
    obtain ⟨hx, hxs⟩ := List.pairwise_cons.mp h
    cases n with
    | zero => rfl
    | succ n =>
      by_cases hkeep : keep x = true
      · rw [List.filter_cons_of_pos hkeep, List.take_succ_cons, List.take_succ_cons,
          List.filter_cons_of_pos hkeep, ih hxs]
      · -- after an element that does not pass none does
        have hnone : ∀ y ∈ x :: xs, ¬keep y = true :=
          List.forall_mem_cons.mpr ⟨hkeep, fun y hy hpass => hkeep (hx y hy hpass)⟩
        rw [List.filter_eq_nil_iff.mpr hnone,
          List.filter_eq_nil_iff.mpr fun y hy => hnone y (List.mem_of_mem_take hy), List.take_nil]

/-! ### The lists -/

/-- The entry of a file of the given path and complexity among the critical paths. -/
def criticalPathOf (path : String) (complexity : Int) : CriticalPath :=
  ⟨"High Complexity: " ++ PathText.basename path, [path], min 100 (complexity * 10), complexity,
    "File with high cyclomatic complexity (" ++ toString complexity ++ ")"⟩

theorem criticalPathsOf_eq (files : List FileRecord) :
    criticalPathsOf files = ((ranked complexityOf files).take topCount).map fun f =>
      criticalPathOf f.path (complexityOf f) := rfl

/-- The files of a complexity above the threshold are the first of a ranking, so it does not matter
whether they are taken out of all files or of those that are listed. -/
theorem highComplexityFilesOf_eq (threshold : Int) (files : List FileRecord) :
    highComplexityFilesOf threshold files
      = (((ranked complexityOf files).take topCount).filter fun f =>
          threshold < complexityOf f).map fun f => ⟨f.path, complexityOf f⟩ := by
  have hranking := isRanking_ranked complexityOf files
  have hfirst : (ranked complexityOf files).Pairwise fun a b =>
      decide (threshold < complexityOf b) = true → decide (threshold < complexityOf a) = true := by
    refine hranking.sorted.imp fun {a b} hprecedes hb => ?_
    rw [decide_eq_true_eq] at hb ⊢
    rcases hprecedes with hlt | ⟨heq, -⟩
    · exact hb.trans hlt
    · rwa [heq]
  unfold highComplexityFilesOf
  dsimp only
  rw [(isRanking_ranked complexityOf _).map_take_eq ComplexFile.mk (hranking.filter _) (.refl _),
    take_filter_of_pairwise hfirst]

/-- No file is listed exactly if no complexity is above the threshold. -/
theorem highComplexityFilesOf_eq_nil_iff {threshold : Int} :
    highComplexityFilesOf threshold files = []
      ↔ ∀ c ∈ Metrics.complexities files, c ≤ threshold := by
  have hnone : ranked complexityOf (files.filter fun f => threshold < complexityOf f) = []
      ↔ ∀ f ∈ files, complexityOf f ≤ threshold := by
    rw [← List.length_eq_zero_iff, (isRanking_ranked _ _).perm.length_eq, List.length_eq_zero_iff,
      List.filter_eq_nil_iff]
    simp only [decide_eq_true_eq, not_lt]
  unfold highComplexityFilesOf Metrics.complexities
  dsimp only
  rw [List.map_eq_nil_iff, List.take_eq_nil_iff, or_iff_right (by decide : topCount ≠ 0), hnone,
    List.forall_mem_map]
  rfl

/-- **The lists of files agree with each other and with the debt.**  The critical paths are the
first five files by complexity, and the files of high complexity are those of them that are above
the threshold, in the same order.  The hotspots are the first five by the number of commits among
the files that at least two commits changed.  None of this depends on the order of the files.  There
is no file of high complexity exactly if there is no technical debt, whether this is computed
exactly or in floating-point numbers. -/
theorem rankings_agree (threshold : Int) (files : List FileRecord) :
    (∃ ranking, IsRanking complexityOf files ranking ∧
      criticalPathsOf files
        = (ranking.take 5).map fun f => criticalPathOf f.path (complexityOf f)) ∧
    (highComplexityFilesOf threshold files).map (fun h => ([h.path], h.complexity))
      = ((criticalPathsOf files).filter fun c => threshold < c.complexity).map
          (fun c => (c.files, c.complexity)) ∧
    (∃ ranking,
      IsRanking commitsOf (files.filter fun f => f.commitCount.any (2 ≤ ·)) ranking ∧
      hotspotsOf files = (ranking.take 5).map fun f => ⟨f.path, commitsOf f⟩) ∧
    (∀ reordered, files.Perm reordered →
      criticalPathsOf reordered = criticalPathsOf files ∧
      highComplexityFilesOf threshold reordered = highComplexityFilesOf threshold files ∧
      hotspotsOf reordered = hotspotsOf files) ∧
    (highComplexityFilesOf threshold files = []
      ↔ Score.halfPointsOfDebt threshold (Metrics.complexities files) = 0) ∧
    (highComplexityFilesOf threshold files = []
      ↔ Score.technicalDebt threshold (Metrics.complexities files) = .ok (.finite .zero)) := by
  refine ⟨⟨_, isRanking_ranked _ _, rfl⟩, ?_, ⟨_, isRanking_ranked _ _, rfl⟩, ?_, ?_, ?_⟩
  · rw [highComplexityFilesOf_eq, criticalPathsOf_eq, List.filter_map, List.map_map, List.map_map]
    rfl
  · intro reordered hperm
    refine ⟨?_, ?_, ?_⟩
    · exact (isRanking_ranked _ _).map_take_eq criticalPathOf (isRanking_ranked _ _) hperm.symm _
    · exact (isRanking_ranked _ _).map_take_eq ComplexFile.mk (isRanking_ranked _ _)
        (hperm.symm.filter _) _
    · exact (isRanking_ranked _ _).map_take_eq Hotspot.mk (isRanking_ranked _ _)
        (hperm.symm.filter _) _
  · rw [highComplexityFilesOf_eq_nil_iff, Score.halfPointsOfDebt_eq_zero_iff]
  · rw [highComplexityFilesOf_eq_nil_iff, Score.technicalDebt_eq_zero_iff]

end CodeAtlas.Insights
