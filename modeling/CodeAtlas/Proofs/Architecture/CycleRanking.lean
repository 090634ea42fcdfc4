import CodeAtlas.Proofs.Architecture.Cycles
import Mathlib.Data.Prod.Lex

/-!
# The ranking of cycles

`findCycles` gives a beginning of one list: every elementary cycle of at most six nodes, once and
from its least name on, shorter ones first and then by their names (`IsRanking`).  A graph has one
such list only (`IsRanking.unique`), and it depends on nothing but the pairs of nodes that are
joined (`IsRanking.congr`).  Whatever enumerates the cycles is ranked so (`Enumerates.isRanking`).
So, if there are no more such cycles than are ranked, neither the order in which they are found
matters nor the order in which nodes and relationships are added (`findCycles_exact`).
-/

namespace CodeAtlas.ComponentGraph

/-! ### The order of cycles -/

/-- What cycles are ordered by: their length, then their names. -/
def rankKey (names : List String) : ℕ ×ₗ List String := toLex (names.length, names)

theorem rankKey_injective : Function.Injective rankKey := by
  intro xs ys h
  exact (Prod.mk.inj (toLex.injective h)).2

theorem shorterOrLess_iff {xs ys : List String} :
    shorterOrLess xs ys = true ↔ rankKey xs ≤ rankKey ys := by
  have hlex : (!List.lex ys xs fun x y => x < y) = true ↔ xs ≤ ys := by
    rw [Bool.not_eq_true', List.lex_eq_false_iff_not_lex, ← not_lt]
    simp only [decide_eq_true_eq]
    exact Iff.rfl
  rw [shorterOrLess, rankKey, rankKey, Prod.Lex.toLex_le_toLex, Bool.or_eq_true, Bool.and_eq_true,
    hlex, decide_eq_true_eq, decide_eq_true_eq]

/-- Different cycles are put in strictly ascending order. -/
theorem pairwise_mergeSort_shorterOrLess {cycles : List (List String)} (h : cycles.Nodup) :
    (cycles.mergeSort shorterOrLess).Pairwise fun xs ys => rankKey xs < rankKey ys := by
  have hkeys : (cycles.map rankKey).Nodup := h.map rankKey_injective
  have hkey : ∀ xs ys, shorterOrLess xs ys = true ↔ rankKey xs ≤ rankKey ys :=
    fun _ _ => shorterOrLess_iff
  exact pairwise_key_lt_mergeSort hkey hkeys

/-! ### Rankings -/

/-- The lists stand for the elementary cycles of at most six nodes, each once.  Every list begins at
its least name, and they are ordered by their lengths and names. -/
structure IsRanking (g : ComponentGraph) (ranked : List (List String)) : Prop
    extends Enumerates g ranked where
  beginsAtLeast : ∀ names ∈ ranked, BeginsAtLeast names
  sorted : ranked.Pairwise fun xs ys => rankKey xs < rankKey ys

variable {g : ComponentGraph}

namespace IsRanking

variable {ranked others : List (List String)}

/-- A ranking has the lists that begin at their least name and stand for a short cycle. -/
theorem mem_ranked_iff (h : IsRanking g ranked) {names : List String} :
    names ∈ ranked ↔ (names : Cycle String) ∈ g.shortCycles ∧ BeginsAtLeast names := by
  constructor
  · intro hnames
    exact ⟨(h.mem_iff names).mp (List.mem_map_of_mem hnames), h.beginsAtLeast names hnames⟩
  · rintro ⟨hshort, hleast⟩
    obtain ⟨found, hfound, heq⟩ := List.mem_map.mp ((h.mem_iff names).mpr hshort)
    have hnodup : names.Nodup := Cycle.nodup_coe_iff.mp hshort.1.nodup
    have hsame := eq_of_coe_eq hnodup hleast (h.beginsAtLeast found hfound) heq.symm
    rwa [hsame]

/-- A graph has one ranking. -/
theorem unique (h : IsRanking g ranked) (h' : IsRanking g others) : ranked = others := by
  have : Std.Irrefl fun xs ys : List String => rankKey xs < rankKey ys :=
    ⟨fun xs => lt_irrefl (rankKey xs)⟩
  have : Std.Antisymm fun xs ys : List String => rankKey xs < rankKey ys :=
    ⟨fun xs ys hlt hgt => absurd hlt hgt.asymm⟩
  apply h.sorted.eq_of_mem_iff h'.sorted
  intro names
  rw [h.mem_ranked_iff, h'.mem_ranked_iff]

/-- Only the pairs of nodes that are joined matter to a ranking. -/
theorem congr {other : ComponentGraph} (h : IsRanking g ranked)
    (hjoined : ∀ pair, pair ∈ g.joined ↔ pair ∈ other.joined) : IsRanking other ranked where
  mem_iff c := by rw [h.mem_iff, shortCycles_congr hjoined]
  nodup := h.nodup
  beginsAtLeast := h.beginsAtLeast
  sorted := h.sorted

end IsRanking

/-! ### What is found -/

/-- If there are no more short cycles than are ranked, then any enumeration of them is ranked right,
in whatever order and from whichever nodes on the cycles are found. -/
theorem Enumerates.isRanking {found : List (List String)} (h : Enumerates g found)
    (hcount : g.shortCycles.encard ≤ 500) :
    IsRanking g (((found.take maxCycles).map fromLeast).mergeSort shorterOrLess) := by
  -- The enumeration has one list for each short cycle, so nothing is cut off.
  have hlen : found.length ≤ maxCycles := by
    rw [h.encard_shortCycles] at hcount
    exact_mod_cast hcount
  rw [List.take_of_length_le hlen]
  have hperm := List.mergeSort_perm (found.map fromLeast) shorterOrLess
  have hcycles : (found.map fromLeast).map Cycle.ofList = found.map Cycle.ofList := by
    rw [List.map_map]
    exact List.map_congr_left fun names _ => coe_fromLeast names
  have hsame := hperm.map Cycle.ofList
  rw [hcycles] at hsame
  refine ⟨⟨fun c => ?_, ?_⟩, fun names hnames => ?_, ?_⟩
  · rw [hsame.mem_iff, h.mem_iff]
  · exact hsame.nodup_iff.mpr h.nodup
  · obtain ⟨cycle, hcycle, rfl⟩ := List.mem_map.mp (hperm.mem_iff.mp hnames)
    have hshort := (h.mem_iff cycle).mp (List.mem_map_of_mem hcycle)
    exact beginsAtLeast_fromLeast fun hnil => hshort.1.ne_nil ((Cycle.coe_eq_nil cycle).mpr hnil)
  · refine pairwise_mergeSort_shorterOrLess (List.Nodup.of_map Cycle.ofList ?_)
    rw [hcycles]
    exact h.nodup

/-- **Cycles are found exactly and in one order.**  Let a graph be built in any steps, and let it
have at most 500 elementary cycles of at most six nodes.  Then it has a ranking, and every limit
gives a beginning of it, whatever enumeration of the cycles is ranked; and the same steps in any
other order give the same. -/
theorem findCycles_exact {steps : List Addition}
    (hcount : (ofAdditions steps).shortCycles.encard ≤ 500) :
    (∃ ranked, IsRanking (ofAdditions steps) ranked ∧
      (∀ limit, (ofAdditions steps).findCycles limit = slice limit ranked) ∧
      ∀ found, Enumerates (ofAdditions steps) found →
        ∀ limit, rankCycles limit found = slice limit ranked) ∧
    ∀ reordered, steps.Perm reordered → ∀ limit,
      (ofAdditions reordered).findCycles limit = (ofAdditions steps).findCycles limit := by
  have hfound := enumerates_elementaryCycles (wellFormed_ofAdditions steps)
  have hranking := hfound.isRanking hcount
  refine ⟨⟨_, hranking, fun limit => rfl, fun found h limit => ?_⟩, fun reordered hperm limit => ?_⟩
  · rw [rankCycles, (h.isRanking hcount).unique hranking]
  · -- In any order the steps join the same pairs, so both graphs have the same cycles and ranking.
    have hjoined := mem_joined_congr hperm
    rw [shortCycles_congr hjoined] at hcount
    have hreordered := enumerates_elementaryCycles (wellFormed_ofAdditions reordered)
    have hsame := (hreordered.isRanking hcount).unique (hranking.congr hjoined)
    rw [findCycles, findCycles, rankCycles, rankCycles, hsame]

/-- Three nodes on two cycles that overlap, of which one has a loop, and a node on no cycle. -/
def overlappingCycles : List Addition :=
  [.relationship "b" "a" "imports" (.whole 1) [], .relationship "c" "c" "imports" (.whole 1) [],
    .node "d" [], .relationship "a" "b" "imports" (.whole 2) [],
    .relationship "b" "c" "extends" (.whole 1) [], .relationship "c" "a" "imports" (.whole 3) []]

theorem findCycles_exact_overlappingCycles :
    (ofAdditions overlappingCycles).shortCycles.encard ≤ 500 ∧
    ∀ reordered, overlappingCycles.Perm reordered →
      (ofAdditions reordered).findCycles 10 = [["c"], ["a", "b"], ["a", "b", "c"]] := by
  have hcount : (ofAdditions overlappingCycles).shortCycles.encard ≤ 500 := by
    have hlen : (ofAdditions overlappingCycles).elementaryCycles.length = 3 := by cbv
    have hfound := enumerates_elementaryCycles (wellFormed_ofAdditions overlappingCycles)
    rw [hfound.encard_shortCycles, hlen]
    decide
  have hfound : (ofAdditions overlappingCycles).findCycles 10
      = [["c"], ["a", "b"], ["a", "b", "c"]] := by cbv
  refine ⟨hcount, fun reordered hperm => ?_⟩
  rw [(findCycles_exact hcount).2 reordered hperm, hfound]

end CodeAtlas.ComponentGraph
