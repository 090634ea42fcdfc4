import CodeAtlas.Insight.Basic
import CodeAtlas.Proofs.Architecture.Cycles

/-!
# Which cycles are reported

Among the issues are circular dependencies: each names a cycle of components, back to its first one.
Every cycle that is named is there, and if the relationships lead in a circle of at most six
components, then some cycle is named, however many there are (`circularIssues_exact`).  A circle of
more components is not looked for, so that it may be all that there is and not be reported
(`circularIssues_ringOfSeven`).

It does not matter whether a circle passes components twice: a closed walk contains a cycle that
does not, and that is no longer (`IsClosedWalk.exists_isDirectedCycle`).
-/

namespace CodeAtlas

/-- A list with a repetition has two places for one element. -/
theorem exists_repeated_of_not_nodup {α : Type} {xs : List α} (h : ¬xs.Nodup) :
    ∃ before x between after, xs = before ++ x :: (between ++ x :: after) := by
  induction xs with
  | nil => exact absurd List.nodup_nil h
  | cons x xs ih =>
    by_cases hx : x ∈ xs
    · obtain ⟨between, after, rfl⟩ := List.append_of_mem hx
      exact ⟨[], x, between, after, rfl⟩
    · have hxs : ¬xs.Nodup := fun hxs => h (List.nodup_cons.mpr ⟨hx, hxs⟩)
      obtain ⟨before, y, between, after, rfl⟩ := ih hxs
      exact ⟨x :: before, y, between, after, rfl⟩

namespace Architecture

/-! ### Walks along relationships -/

/-- A relationship leads from one component to another. -/
def DependsOn (architecture : Architecture) (source target : String) : Prop :=
  ∃ r ∈ architecture.relationships, r.source = source ∧ r.target = target

/-- The graph of the components and their relationships. -/
def graph (architecture : Architecture) : ComponentGraph :=
  ComponentGraph.ofArchitecture architecture.components architecture.relationships

/-- Relationships lead from each component to the next one, and from the last back to the first. -/
structure IsClosedWalk (architecture : Architecture) (names : List String) : Prop where
  ne_nil : names ≠ []
  chain : (names ++ names.take 1).IsChain architecture.DependsOn

/-- A closed walk on which no component occurs twice. -/
structure IsDirectedCycle (architecture : Architecture) (names : List String) : Prop
    extends IsClosedWalk architecture names where
  nodup : names.Nodup

variable {architecture : Architecture}

/-- What lies between two visits of one component is a closed walk of its own. -/
theorem IsClosedWalk.shortcut {before between after : List String} {name : String}
    (h : IsClosedWalk architecture (before ++ name :: (between ++ name :: after))) :
    IsClosedWalk architecture (name :: between) where
  ne_nil := List.cons_ne_nil name between
  chain := by
    refine h.chain.infix
      ⟨before, after ++ (before ++ name :: (between ++ name :: after)).take 1, ?_⟩
    rw [List.take_succ_cons, List.take_zero]
    simp only [List.append_assoc, List.cons_append, List.nil_append]

/-- A closed walk contains a cycle. -/
theorem IsClosedWalk.exists_isDirectedCycle {names : List String}
    (h : IsClosedWalk architecture names) :
    ∃ cycle, IsDirectedCycle architecture cycle ∧ cycle.length ≤ names.length := by
  -- A walk that comes to a component again has a shorter one in it, so the induction is on lengths.
  induction hlen : names.length using Nat.strong_induction_on generalizing names with
  | _ n ih =>
    by_cases hnodup : names.Nodup
    · exact ⟨names, ⟨h, hnodup⟩, hlen.le⟩
    · obtain ⟨before, name, between, after, rfl⟩ := exists_repeated_of_not_nodup hnodup
      have hless : (name :: between).length < n := by
        rw [← hlen]
        simp only [List.length_append, List.length_cons]
        omega
      obtain ⟨cycle, hcycle, hle⟩ := ih _ hless h.shortcut rfl
      exact ⟨cycle, hcycle, hle.trans hless.le⟩

theorem wellFormed_graph (architecture : Architecture) : architecture.graph.WellFormed := by
  rw [graph, ComponentGraph.ofArchitecture_eq_ofAdditions]
  exact ComponentGraph.wellFormed_ofAdditions _

/-- The cycles along relationships are those of the graph. -/
theorem isDirectedCycle_iff {names : List String} :
    IsDirectedCycle architecture names ↔ architecture.graph.IsElementary names := by
  have hjoined : architecture.DependsOn = fun a b => (a, b) ∈ architecture.graph.joined := by
    funext a b
    exact propext ComponentGraph.mem_joined_ofArchitecture.symm
  cases names with
  | nil => exact iff_of_false (fun h => h.ne_nil rfl) fun h => h.ne_nil rfl
  | cons start rest =>
    constructor
    · intro h
      refine ⟨?_, Cycle.nodup_coe_iff.mpr h.nodup, ?_⟩
      · rw [Ne, Cycle.coe_eq_nil]
        exact h.ne_nil
      · rw [Cycle.chain_coe_cons, ← hjoined]
        exact h.chain
    · intro h
      have hchain := h.chain
      rw [Cycle.chain_coe_cons, ← hjoined] at hchain
      exact ⟨⟨List.cons_ne_nil start rest, hchain⟩, Cycle.nodup_coe_iff.mp h.nodup⟩

end Architecture

namespace ComponentGraph

variable {g : ComponentGraph} {limit : Int}

/-- What is found is short cycles. -/
theorem mem_shortCycles_of_mem_findCycles (hg : WellFormed g) {names : List String}
    (h : names ∈ g.findCycles limit) : (names : Cycle String) ∈ g.shortCycles := by
  have hranked : names ∈ ((g.elementaryCycles.take maxCycles).map fromLeast).mergeSort
      shorterOrLess := by
    rw [findCycles, rankCycles, slice] at h
    split_ifs at h <;> exact List.mem_of_mem_take h
  obtain ⟨cycle, hcycle, rfl⟩ := List.mem_map.mp (List.mem_mergeSort.mp hranked)
  rw [coe_fromLeast]
  exact ((mem_elementaryCycles hg).mp (List.mem_of_mem_take hcycle)).1

/-- However much is cut off, something is found if there is something to find. -/
theorem findCycles_ne_nil (hlimit : 0 < limit) (h : g.elementaryCycles ≠ []) :
    g.findCycles limit ≠ [] := by
  rw [← List.length_pos_iff] at h ⊢
  rw [findCycles, rankCycles, slice, if_neg hlimit.le.not_gt, List.length_take,
    List.length_mergeSort, List.length_map, List.length_take, maxCycles]
  omega

end ComponentGraph

namespace Insights

/-! ### Issues -/

/-- What an issue begins with that is a circular dependency. -/
def circularMark : String := "Circular dependency between components: "

/-- The issue is a circular dependency. -/
def IsCircular (issue : String) : Prop := ∃ loop, issue = circularMark ++ loop

theorem isCircular_cycleIssue (names : List String) : IsCircular (cycleIssue names) := ⟨_, rfl⟩

/-- A text that begins with another letter is not a circular dependency. -/
theorem not_isCircular {issue : String} (h : issue.toList.head? ≠ some 'C') :
    ¬IsCircular issue := by
  rintro ⟨loop, rfl⟩
  rw [String.toList_append] at h
  exact h rfl

variable {architecture : Architecture} {metrics : Metrics}

/-- The circular dependencies among the issues are the cycles that are found. -/
theorem mem_issuesOf_iff {issue : String} (h : IsCircular issue) :
    issue ∈ issuesOf architecture metrics
      ↔ ∃ names ∈ architecture.graph.findCycles reportedCycles, cycleIssue names = issue := by
  -- the other issues begin with other letters
  have hother : ∀ {text : String} (c : Bool), text.toList.head? ≠ some 'C' →
      issue ∉ (if c then [text] else []) := by
    intro text c htext hmem
    cases c with
    | false => exact absurd hmem List.not_mem_nil
    | true => exact not_isCircular htext (List.mem_singleton.mp hmem ▸ h)
  rw [issuesOf]
  simp only [List.mem_append, List.mem_map]
  refine ⟨?_, Or.inr⟩
  rintro (((hissue | hissue) | hissue) | hissue)
  · exact absurd hissue (hother _ (by decide))
  · exact absurd hissue (by simpa using hother (decide (20 < metrics.maxComplexity)) (by decide))
  · exact absurd hissue (hother _ (by decide))
  · exact hissue

/-- A circular dependency names a cycle. -/
theorem exists_isDirectedCycle_of_mem_issuesOf {issue : String}
    (hissue : issue ∈ issuesOf architecture metrics) (h : IsCircular issue) :
    ∃ names, architecture.IsDirectedCycle names ∧ names.length ≤ 6 ∧
      issue = circularMark ++ " -> ".intercalate (names ++ names.take 1) := by
  obtain ⟨names, hfound, rfl⟩ := (mem_issuesOf_iff h).mp hissue
  obtain ⟨helementary, hlen⟩ :=
    ComponentGraph.mem_shortCycles_of_mem_findCycles architecture.wellFormed_graph hfound
  exact ⟨names, Architecture.isDirectedCycle_iff.mpr helementary, hlen, rfl⟩

/-- If there is a cycle, then some cycle is reported, though it may be another one. -/
theorem exists_isCircular_of_isDirectedCycle {names : List String}
    (h : architecture.IsDirectedCycle names) (hlen : names.length ≤ 6) :
    ∃ issue ∈ issuesOf architecture metrics, IsCircular issue := by
  have hshort : (names : Cycle String) ∈ architecture.graph.shortCycles :=
    ⟨Architecture.isDirectedCycle_iff.mp h, hlen⟩
  have hsearch := ComponentGraph.enumerates_elementaryCycles architecture.wellFormed_graph
  obtain ⟨cycle, hcycle, -⟩ := List.mem_map.mp ((hsearch.mem_iff _).mpr hshort)
  -- The cycle itself may be cut off, but then others are found.
  have hpositive : 0 < reportedCycles := by decide
  have hfind := ComponentGraph.findCycles_ne_nil hpositive (List.ne_nil_of_mem hcycle)
  obtain ⟨found, hfound⟩ := List.exists_mem_of_ne_nil _ hfind
  have hcircular := isCircular_cycleIssue found
  exact ⟨_, (mem_issuesOf_iff hcircular).mpr ⟨found, hfound, rfl⟩, hcircular⟩

/-- **Short cycles are reported.**  There is a circular dependency among the issues if and only if
relationships lead in a cycle of at most six components; a closed walk of at most six steps is
enough.  And every circular dependency names such a cycle, from one component over the others back
to it. -/
theorem circularIssues_exact (architecture : Architecture) (metrics : Metrics) :
    ((∃ issue ∈ issuesOf architecture metrics, IsCircular issue)
      ↔ ∃ names, architecture.IsDirectedCycle names ∧ names.length ≤ 6) ∧
    ((∃ names, architecture.IsClosedWalk names ∧ names.length ≤ 6)
      → ∃ issue ∈ issuesOf architecture metrics, IsCircular issue) ∧
    ∀ issue ∈ issuesOf architecture metrics, IsCircular issue →
      ∃ names, architecture.IsDirectedCycle names ∧ names.length ≤ 6 ∧
        issue = circularMark ++ " -> ".intercalate (names ++ names.take 1) := by
  refine ⟨⟨?_, ?_⟩, ?_, fun issue => exists_isDirectedCycle_of_mem_issuesOf⟩
  · rintro ⟨issue, hissue, hcircular⟩
    obtain ⟨names, hcycle, hlen, -⟩ := exists_isDirectedCycle_of_mem_issuesOf hissue hcircular
    exact ⟨names, hcycle, hlen⟩
  · rintro ⟨names, hcycle, hlen⟩
    exact exists_isCircular_of_isDirectedCycle hcycle hlen
  · rintro ⟨names, hwalk, hlen⟩
    obtain ⟨cycle, hcycle, hle⟩ := hwalk.exists_isDirectedCycle
    exact exists_isCircular_of_isDirectedCycle hcycle (hle.trans hlen)

/-- The names of seven components. -/
def ringNames : List String := ["a", "b", "c", "d", "e", "f", "g"]

/-- Seven components of which each depends on the next one, and the last on the first. -/
def ringOfSeven : Architecture where
  components := ringNames.map fun name =>
    { name, type := .component, files := [name ++ "/index.js"], dependencies := []
      dependents := [], complexity := 1, description := "", patterns := [] }
  relationships := (ringNames.zip (ringNames.rotate 1)).map fun (source, target) =>
    ⟨source, target, .importing, RelationshipKind.importing.strength, 1⟩
  layers := []
  patterns := []

theorem circularIssues_ringOfSeven :
    ringOfSeven.IsDirectedCycle ringNames ∧
    ¬∃ issue ∈ issuesOf ringOfSeven Metrics.empty, IsCircular issue := by
  have hwalk : ringOfSeven.IsClosedWalk ringNames := by
    refine ⟨List.cons_ne_nil _ _, ?_⟩
    simp [ringNames, ringOfSeven, Architecture.DependsOn]
  have hissues : issuesOf ringOfSeven Metrics.empty = [] := by decide +kernel
  rw [hissues]
  refine ⟨⟨hwalk, by decide⟩, ?_⟩
  rintro ⟨issue, hissue, -⟩
  exact absurd hissue List.not_mem_nil

end Insights

end CodeAtlas
