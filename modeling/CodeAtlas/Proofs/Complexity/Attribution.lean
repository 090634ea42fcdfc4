import CodeAtlas.Proofs.Extraction.Recorded
import Mathlib.Algebra.BigOperators.Ring.Finset
import Mathlib.Data.Int.Cast.Lemmas

/-!
# Whom a decision point counts for

Every decision point of a tree raises the complexity of at most one recorded function or method:
that of its nearest enclosing scope, if this is recorded and the point lies in its body.  So the
complexities of a file, less one for each callable, add up to at most the number of its decision
points (`decisions_counted_once`).
-/

namespace CodeAtlas.Extraction

open CodeAtlas.Syntax CodeAtlas.Syntax.Node

/-- The positions of the decision points of a tree. -/
def decisionPositions (root : Node) : List Position :=
  root.positions.filter (root.holdsAt isDecision)

/-- The complexity of a callable is one more than the number of positions that count for it. -/
theorem complexityAt_eq {root : Node} {p : Position} (h : p ∈ recordedCallables root) :
    complexityAt root p = 1 + (contributions root p).length := by
  obtain ⟨n, hn, -⟩ := isScope_of_mem_recordedCallables h
  rw [complexityAt_of_at? hn, complexity_eq, contributions_eq hn, List.length_map]

/-- What counts for a callable: the decision points in its body of which it is the nearest scope. -/
theorem mem_contributions_iff {root : Node} {p d : Position} (h : p ∈ recordedCallables root) :
    d ∈ contributions root p
      ↔ root.holdsAt isDecision d = true ∧ IsNearestScope root p d ∧ InBody root p d := by
  obtain ⟨n, hn, hscope⟩ := isScope_of_mem_recordedCallables h
  exact mem_contributions hn hscope

/-- The contributions to all callables are different decision points. -/
theorem length_contributions_le (root : Node) :
    ((recordedCallables root).map fun p => (contributions root p).length).sum
      ≤ (decisionPositions root).length := by
  have hnodup : ((recordedCallables root).flatMap (contributions root)).Nodup := by
    refine List.nodup_flatMap.mpr ⟨fun p _ => nodup_contributions root p, ?_⟩
    refine (nodup_recordedCallables root).pairwise_of_forall_ne fun p hp q hq hne d hdp hdq => ?_
    obtain ⟨-, hnearest, -⟩ := (mem_contributions_iff hp).mp hdp
    obtain ⟨-, hnearest', -⟩ := (mem_contributions_iff hq).mp hdq
    exact hne (hnearest.unique hnearest')
  have hsub : (recordedCallables root).flatMap (contributions root) ⊆ decisionPositions root := by
    intro d hd
    obtain ⟨p, hp, hdp⟩ := List.mem_flatMap.mp hd
    obtain ⟨hdecision, -, -⟩ := (mem_contributions_iff hp).mp hdp
    obtain ⟨n, hn, -⟩ := holdsAt_iff.mp hdecision
    exact List.mem_filter.mpr ⟨mem_positions.mpr ⟨n, hn⟩, hdecision⟩
  rw [← List.length_flatMap]
  exact (List.subperm_of_subset hnodup hsub).length_le

/-- **Every decision point counts at most once.**  The callables of a tree are recorded once each,
and the complexity of each is one more than the number of positions that count for it.  These are
the decision points in its body whose nearest scope it is; so a decision point counts for one
callable at most, and all complexities, less one for each callable, add up to no more than the
number of decision points. -/
theorem decisions_counted_once (root : Node) :
    (recordedCallables root).Nodup ∧
    recordedComplexities (Findings.ofTree root)
      = (recordedCallables root).map (fun p => 1 + ((contributions root p).length : Int)) ∧
    (∀ p ∈ recordedCallables root, (contributions root p).Nodup ∧ ∀ d,
      d ∈ contributions root p
        ↔ root.holdsAt isDecision d = true ∧ IsNearestScope root p d ∧ InBody root p d) ∧
    (∀ d, ∀ p ∈ recordedCallables root, ∀ q ∈ recordedCallables root,
      d ∈ contributions root p → d ∈ contributions root q → p = q) ∧
    ((recordedComplexities (Findings.ofTree root)).map (· - 1)).sum
      ≤ ((decisionPositions root).length : Int) := by
  have hcomplexities : recordedComplexities (Findings.ofTree root)
      = (recordedCallables root).map (fun p => 1 + ((contributions root p).length : Int)) := by
    rw [recordedComplexities_eq]
    refine List.map_congr_left fun p hp => ?_
    rw [complexityAt_eq hp]
    push_cast
    rfl
  refine ⟨nodup_recordedCallables root, hcomplexities, ?_, ?_, ?_⟩
  · exact fun p hp => ⟨nodup_contributions root p, fun d => mem_contributions_iff hp⟩
  · intro d p hp q hq hdp hdq
    exact ((mem_contributions_iff hp).mp hdp).2.1.unique ((mem_contributions_iff hq).mp hdq).2.1
  · rw [hcomplexities, List.map_map]
    have hterms : ((· - 1) ∘ fun p => 1 + ((contributions root p).length : Int))
        = fun p => ((contributions root p).length : Int) := by
      funext p
      rw [Function.comp]
      omega
    have hsum : ((recordedCallables root).map fun p => ((contributions root p).length : Int)).sum
        = (((recordedCallables root).map fun p => (contributions root p).length).sum : Nat) := by
      rw [Nat.cast_list_sum, List.map_map]
      rfl
    rw [hterms, hsum]
    exact_mod_cast length_contributions_le root

/-- A function with a condition, in which an arrow function with a logical operator is declared:
`function f() { if … const g = … => … && … }`. -/
def nestedArrow : Node :=
  nodeOf (.rule .program) none "" [
    nodeOf (.rule .functionDeclaration) none "" [
      nodeOf (.rule .identifier) (some .name) "f" [],
      nodeOf (.rule .statementBlock) (some .body) "" [
        nodeOf (.rule .ifStatement) none "" [],
        nodeOf (.rule .lexicalDeclaration) none "" [
          nodeOf (.rule .variableDeclarator) none "" [
            nodeOf (.rule .identifier) (some .name) "g" [],
            nodeOf (.rule .arrowFunction) (some .value) "" [
              nodeOf (.rule .binaryExpression) (some .body) "" [
                nodeOf (.token "&&") (some .operator) "&&" []]]]]]]]
where
  nodeOf (kind : Kind) (field : Option Field) (text : String) (children : List Node) : Node :=
    ⟨kind, field, 0, 0, text, false, false, children⟩

/-- The logical operator counts for the arrow function, and so not for the function around it. -/
theorem decisions_counted_once_nestedArrow :
    recordedCallables nestedArrow = [[0], [0, 1, 1, 0, 1]] ∧
    recordedComplexities (Findings.ofTree nestedArrow) = [2, 2] ∧
    [0, 1, 1, 0, 1, 0] ∈ contributions nestedArrow [0, 1, 1, 0, 1] ∧
    [0, 1, 1, 0, 1, 0] ∉ contributions nestedArrow [0] := by
  have hcallables : recordedCallables nestedArrow = [[0], [0, 1, 1, 0, 1]] := by decide +kernel
  have harrow : [0, 1, 1, 0, 1, 0] ∈ contributions nestedArrow [0, 1, 1, 0, 1] := by decide +kernel
  obtain ⟨-, hcomplexities, -, honce, -⟩ := decisions_counted_once nestedArrow
  refine ⟨hcallables, hcomplexities.trans (by decide +kernel), harrow, fun hfunction => ?_⟩
  have hsame := honce _ [0] (by rw [hcallables]; decide) [0, 1, 1, 0, 1]
    (by rw [hcallables]; decide) hfunction harrow
  exact absurd hsame (by decide)

end CodeAtlas.Extraction
