import CodeAtlas.Proofs.Architecture.Graph
import Mathlib.Algebra.BigOperators.Group.List.Basic
import Mathlib.Algebra.Group.Int.Defs

/-!
# What accumulates in a graph

A graph is built by calls, each of which adds a node or a relationship with what is given for it.
All relationships from one node to another share an edge: its weight is the sum of theirs, its kinds
are their kinds in the order in which they first come, and everything else is what was given for the
first (`accumulated`).  One call leaves the edges of other pairs alone
(`edgesBetween_addRelationship_of_ne`) and raises the edge of its own
(`edgesBetween_addRelationship_self`), so this holds after any calls (`edgesBetween_ofCalls`).
`ofCalls_accumulates` says what follows for the graph as a whole: which nodes and edges it has, that
the neighbours of nodes match, and what does not depend on the order of the calls.
-/

namespace CodeAtlas

namespace Attributes

/-- If a weight is given, it is a whole number. -/
def HasWholeWeight (given : Attributes) : Prop :=
  ∀ value, given.lookup weightKey = some value → ∃ n, value = .int n

/-- The whole number that is given as weight, or one if none is. -/
def wholeWeight (given : Attributes) : Int :=
  match given.lookup weightKey with
  | some (.int n) => n
  | _ => 1

theorem HasWholeWeight.weight_eq {given : Attributes} (h : given.HasWholeWeight) :
    given.weight = .whole given.wholeWeight := by
  unfold weight wholeWeight
  cases hvalue : given.lookup weightKey with
  | none => rfl
  | some value =>
    obtain ⟨n, rfl⟩ := h value hvalue
    rfl

end Attributes

namespace ComponentGraph

/-! ### Calls -/

/-- A call that adds to a graph. -/
inductive Call where
  | node (name : String) (given : Attributes)
  | relationship (source target kind : String) (given : Attributes)

/-- A relationship with what is given for it, apart from the nodes that it joins. -/
structure Occurrence where
  kind : String
  given : Attributes

namespace Call

/-- The nodes that a call is about. -/
def names : Call → List String
  | node name _ => [name]
  | relationship source target _ _ => [source, target]

/-- If the call gives a weight, it is a whole number. -/
def HasWholeWeight : Call → Prop
  | node _ _ => True
  | relationship _ _ _ given => given.HasWholeWeight

/-- The step that a call is. -/
def addition : Call → Addition
  | node name given => .node name given
  | relationship source target kind given =>
    .relationship source target kind given.weight given.withoutWeight

/-- The relationship from one node to another that the call adds. -/
def between? (a b : String) : Call → Option Occurrence
  | node _ _ => none
  | relationship source target kind given =>
    if (source, target) = (a, b) then some ⟨kind, given⟩ else none

end Call

/-- The graph after a call. -/
def after (g : ComponentGraph) : Call → ComponentGraph
  | .node name given => g.addNode name given
  | .relationship source target kind given => g.relate source target kind given

/-- The graph that calls build from nothing. -/
def ofCalls (calls : List Call) : ComponentGraph := calls.foldl after empty

/-- The relationships from one node to another, in the order of the calls that add them. -/
def between (calls : List Call) (a b : String) : List Occurrence :=
  calls.filterMap (Call.between? a b)

theorem ofCalls_concat (calls : List Call) (call : Call) :
    ofCalls (calls ++ [call]) = (ofCalls calls).after call := by
  rw [ofCalls, ofCalls, List.foldl_concat]

theorem between_concat (calls : List Call) (call : Call) (a b : String) :
    between (calls ++ [call]) a b = between calls a b ++ (call.between? a b).toList := by
  rw [between, between, List.filterMap_append]
  cases h : call.between? a b <;> simp [h]

variable {g : ComponentGraph} {a b : String}

/-- What calls build is built in steps. -/
theorem ofCalls_eq_ofAdditions (calls : List Call) :
    ofCalls calls = ofAdditions (calls.map Call.addition) := by
  have hstep : after = fun g call => add g call.addition := by
    funext g call
    cases call <;> rfl
  rw [ofCalls, ofAdditions, List.foldl_map, hstep]

theorem wellFormed_ofCalls (calls : List Call) : WellFormed (ofCalls calls) := by
  rw [ofCalls_eq_ofAdditions]
  exact wellFormed_ofAdditions _

/-- The nodes of a graph are those that the calls are about. -/
theorem mem_names_ofCalls {calls : List Call} {name : String} :
    name ∈ (ofCalls calls).names ↔ ∃ call ∈ calls, name ∈ call.names := by
  induction calls using List.reverseRecOn with
  | nil => exact ⟨fun h => absurd h List.not_mem_nil, fun ⟨_, h, _⟩ => absurd h List.not_mem_nil⟩
  | append_singleton calls call ih =>
    have hstep : name ∈ ((ofCalls calls).after call).names
        ↔ name ∈ (ofCalls calls).names ∨ name ∈ call.names := by
      cases call with
      | node other given =>
        rw [ComponentGraph.after, mem_names_addNode, Call.names, List.mem_singleton]
      | relationship source target kind given =>
        rw [ComponentGraph.after, relate, (wellFormed_ofCalls calls).mem_names_addRelationship,
          Call.names, List.mem_pair]
    rw [ofCalls_concat, hstep, ih]
    simp only [List.mem_append, List.mem_singleton, or_and_right, exists_or, exists_eq_left]

/-! ### The edges of one pair of nodes -/

/-- The edges from one node to another. -/
def edgesBetween (g : ComponentGraph) (a b : String) : List Edge :=
  g.edges.filter (Edge.joins · a b)

theorem edge?_eq_head? (g : ComponentGraph) (a b : String) :
    g.edge? a b = (g.edgesBetween a b).head? := by
  rw [edgesBetween, List.head?_filter]
  rfl

theorem edgesBetween_eq_nil_iff : g.edgesBetween a b = [] ↔ (a, b) ∉ g.joined := by
  rw [← isSome_edge?_iff, edge?_eq_head?, List.isSome_head?]
  simp

@[simp]
theorem edgesBetween_addNode (g : ComponentGraph) (name : String) (attributes : Attributes)
    (a b : String) : (g.addNode name attributes).edgesBetween a b = g.edgesBetween a b := by
  rw [edgesBetween, edges_addNode, edgesBetween]

variable {source target kind : String} {weight : Weight} {attributes : Attributes}

theorem joins_iff {e : Edge} : Edge.joins e a b = true ↔ (e.source, e.target) = (a, b) := by
  rw [Edge.joins, Bool.and_eq_true, beq_iff_eq, beq_iff_eq, Prod.mk.injEq]

/-- Edges that are raised join the same nodes as before. -/
theorem filter_joins_map_raise (edges : List Edge) (source target kind : String) (weight : Weight)
    (a b : String) :
    (edges.map fun e => if Edge.joins e source target then Edge.raise e kind weight else e).filter
        (Edge.joins · a b)
      = (edges.filter (Edge.joins · a b)).map fun e =>
          if Edge.joins e source target then Edge.raise e kind weight else e := by
  have hjoins : ((Edge.joins · a b) ∘ fun e =>
      if Edge.joins e source target then Edge.raise e kind weight else e) = (Edge.joins · a b) := by
    funext e
    rw [Function.comp]
    split <;> rfl
  rw [List.filter_map, hjoins]

/-- A relationship leaves the edges of other pairs alone. -/
theorem edgesBetween_addRelationship_of_ne (h : (source, target) ≠ (a, b)) :
    (g.addRelationship source target kind weight attributes).edgesBetween a b
      = g.edgesBetween a b := by
  unfold addRelationship
  split_ifs
  · show (g.edges.map _).filter _ = _
    rw [filter_joins_map_raise]
    refine (List.map_congr_left fun e he => ?_).trans (List.map_id _)
    have hjoins := joins_iff.mp (List.mem_filter.mp he).2
    exact if_neg fun hother => h ((joins_iff.mp hother).symm.trans hjoins)
  · show (((g.addNode source []).addNode target []).edges ++ [_]).filter _ = _
    have hnew :
        List.filter (Edge.joins · a b) [⟨source, target, [kind], weight, attributes⟩] = [] :=
      List.filter_eq_nil_iff.mpr <| List.forall_mem_singleton.mpr fun hjoins =>
        h (joins_iff.mp hjoins)
    rw [edges_addNode, edges_addNode, List.filter_append, hnew, List.append_nil, edgesBetween]

/-- A relationship raises the edge of its pair, or makes it. -/
theorem edgesBetween_addRelationship_self :
    (g.addRelationship a b kind weight attributes).edgesBetween a b
      = if (a, b) ∈ g.joined then (g.edgesBetween a b).map (Edge.raise · kind weight)
        else [⟨a, b, [kind], weight, attributes⟩] := by
  unfold addRelationship
  by_cases h : (a, b) ∈ g.joined
  · rw [if_pos (isSome_edge?_iff.mpr h), if_pos h]
    show (g.edges.map _).filter _ = _
    rw [filter_joins_map_raise]
    exact List.map_congr_left fun e he => if_pos (List.mem_filter.mp he).2
  · rw [if_neg (fun hsome => h (isSome_edge?_iff.mp hsome)), if_neg h]
    show (((g.addNode a []).addNode b []).edges ++ [_]).filter _ = _
    have hold : g.edges.filter (Edge.joins · a b) = [] := edgesBetween_eq_nil_iff.mpr h
    have hnew : List.filter (Edge.joins · a b) [⟨a, b, [kind], weight, attributes⟩]
        = [⟨a, b, [kind], weight, attributes⟩] :=
      List.filter_eq_self.mpr <| List.forall_mem_singleton.mpr (joins_iff.mpr rfl)
    rw [edges_addNode, edges_addNode, List.filter_append, hold, hnew, List.nil_append]

/-! ### What relationships add up to -/

/-- The edge that relationships from one node to another share: none if there are none. -/
def accumulated (a b : String) : List Occurrence → List Edge
  | [] => []
  | first :: rest =>
    [{ source := a
       target := b
       kinds := ((first :: rest).map (·.kind)).eraseDups
       weight := .whole (integerSum ((first :: rest).map (·.given.wholeWeight)))
       attributes := first.given.withoutWeight }]

theorem accumulated_singleton (a b : String) (o : Occurrence) :
    accumulated a b [o]
      = [⟨a, b, [o.kind], .whole o.given.wholeWeight, o.given.withoutWeight⟩] := by
  simp [accumulated, List.eraseDups_cons, integerSum]

/-- One more relationship raises the edge. -/
theorem accumulated_concat {occurrences : List Occurrence} (h : occurrences ≠ []) (o : Occurrence) :
    accumulated a b (occurrences ++ [o])
      = (accumulated a b occurrences).map (Edge.raise · o.kind (.whole o.given.wholeWeight)) := by
  cases occurrences with
  | nil => exact absurd rfl h
  | cons first rest =>
    have hkinds : ((first :: (rest ++ [o])).map (·.kind)).eraseDups
        = if ((first :: rest).map (·.kind)).eraseDups.contains o.kind
          then ((first :: rest).map (·.kind)).eraseDups
          else ((first :: rest).map (·.kind)).eraseDups ++ [o.kind] := by
      rw [← List.cons_append, List.map_append, List.map_singleton, eraseDups_concat]
      simp only [List.contains_iff_mem, List.mem_eraseDups]
    have hweight : integerSum ((first :: (rest ++ [o])).map (·.given.wholeWeight))
        = integerSum ((first :: rest).map (·.given.wholeWeight)) + o.given.wholeWeight := by
      rw [← List.cons_append, List.map_append, List.map_singleton]
      show List.sum (_ ++ [_]) = List.sum _ + _
      rw [List.sum_append, List.sum_singleton]
    rw [List.cons_append, accumulated, accumulated, hkinds, hweight]
    rfl

theorem accumulated_eq_nil_iff {occurrences : List Occurrence} :
    accumulated a b occurrences = [] ↔ occurrences = [] := by
  cases occurrences with
  | nil => exact iff_of_true rfl rfl
  | cons first rest => exact iff_of_false (List.cons_ne_nil _ _) (List.cons_ne_nil _ _)

/-- The edges from one node to another are what the relationships between them add up to. -/
theorem edgesBetween_ofCalls {calls : List Call} (h : ∀ call ∈ calls, call.HasWholeWeight)
    (a b : String) : (ofCalls calls).edgesBetween a b = accumulated a b (between calls a b) := by
  -- The last call leaves the edges of the pair alone or raises them, and does the same to the sum.
  induction calls using List.reverseRecOn with
  | nil => rfl
  | append_singleton calls call ih =>
    have ih := ih fun c hc => h c (List.mem_append_left _ hc)
    have hcall := h call (List.mem_append_right _ (List.mem_singleton.mpr rfl))
    rw [ofCalls_concat, between_concat]
    cases call with
    | node name given =>
      rw [after, edgesBetween_addNode, ih]
      exact congrArg _ (List.append_nil _).symm
    | relationship source target kind given =>
      rw [after, relate, Attributes.HasWholeWeight.weight_eq hcall, Call.between?]
      by_cases hpair : (source, target) = (a, b)
      · obtain ⟨rfl, rfl⟩ := Prod.mk.inj hpair
        rw [if_pos rfl, edgesBetween_addRelationship_self, Option.toList_some]
        -- the two nodes are joined already exactly if there are earlier relationships
        have hjoined : (source, target) ∈ (ofCalls calls).joined
            ↔ between calls source target ≠ [] := by
          rw [Ne, ← accumulated_eq_nil_iff, ← ih, edgesBetween_eq_nil_iff, not_not]
        split_ifs with hmem
        · rw [accumulated_concat (hjoined.mp hmem), ih]
        · rw [not_not.mp (mt hjoined.mpr hmem), List.nil_append, accumulated_singleton]
      · rw [if_neg hpair, edgesBetween_addRelationship_of_ne hpair, ih]
        exact congrArg _ (List.append_nil _).symm

/-! ### Neighbours -/

theorem mem_neighbors_outward : b ∈ g.neighbors a .outward ↔ (a, b) ∈ g.joined := by
  rw [neighbors, sortedNames, mem_mergeSort_eraseDups, mem_successors]

theorem mem_neighbors_inward : a ∈ g.neighbors b .inward ↔ (a, b) ∈ g.joined := by
  rw [neighbors, sortedNames, mem_mergeSort_eraseDups, mem_predecessors]

theorem mem_neighbors_both :
    b ∈ g.neighbors a .both ↔ b ∈ g.neighbors a .outward ∨ b ∈ g.neighbors a .inward := by
  rw [mem_neighbors_outward, mem_neighbors_inward, neighbors, sortedNames, mem_mergeSort_eraseDups,
    List.mem_append, mem_successors, mem_predecessors]

/-- Neighbours are named in order and each once. -/
theorem pairwise_neighbors (g : ComponentGraph) (a : String) (direction : Direction) :
    (g.neighbors a direction).Pairwise (· < ·) := by
  cases direction <;> exact pairwise_lt_mergeSort_eraseDups _

/-! ### The whole graph -/

theorem mem_joined_ofCalls {calls : List Call} (h : ∀ call ∈ calls, call.HasWholeWeight) :
    (a, b) ∈ (ofCalls calls).joined ↔ between calls a b ≠ [] := by
  rw [Ne, ← accumulated_eq_nil_iff, ← edgesBetween_ofCalls h, edgesBetween_eq_nil_iff, not_not]

/-- The weight of the edge from one node to another, if there is one. -/
theorem weight_edge?_ofCalls {calls : List Call} (h : ∀ call ∈ calls, call.HasWholeWeight)
    (a b : String) : ((ofCalls calls).edge? a b).map (·.weight)
      = if between calls a b = [] then none
        else some (.whole (integerSum ((between calls a b).map (·.given.wholeWeight)))) := by
  rw [edge?_eq_head?, edgesBetween_ofCalls h]
  cases between calls a b <;> rfl

/-- **Every call counts.**  Let every weight that is given be a whole number.  The nodes are those
that the calls add and those that their relationships join, each once.  From one node to another
there is no edge or one, and it is what the relationships between them add up to.  Edges are seen
from both of their ends, and neighbours are named in order and each once.  The same calls in any
other order give the same nodes, and edges of the same weights between the same nodes. -/
theorem ofCalls_accumulates {calls : List Call} (h : ∀ call ∈ calls, call.HasWholeWeight) :
    ((ofCalls calls).names.Nodup ∧
      ∀ name, name ∈ (ofCalls calls).names ↔ ∃ call ∈ calls, name ∈ call.names) ∧
    (∀ a b, (ofCalls calls).edgesBetween a b = accumulated a b (between calls a b)) ∧
    (∀ a b, (b ∈ (ofCalls calls).neighbors a .outward ↔ between calls a b ≠ []) ∧
      (a ∈ (ofCalls calls).neighbors b .inward ↔ b ∈ (ofCalls calls).neighbors a .outward) ∧
      (b ∈ (ofCalls calls).neighbors a .both
        ↔ b ∈ (ofCalls calls).neighbors a .outward ∨ b ∈ (ofCalls calls).neighbors a .inward)) ∧
    (∀ a direction, ((ofCalls calls).neighbors a direction).Pairwise (· < ·)) ∧
    ∀ reordered, calls.Perm reordered →
      (∀ name, name ∈ (ofCalls reordered).names ↔ name ∈ (ofCalls calls).names) ∧
      ∀ a b, ((ofCalls reordered).edge? a b).map (·.weight)
        = ((ofCalls calls).edge? a b).map (·.weight) := by
  refine ⟨⟨(wellFormed_ofCalls calls).nodup_names, fun name => mem_names_ofCalls⟩,
    edgesBetween_ofCalls h, fun a b => ⟨?_, ?_, mem_neighbors_both⟩, pairwise_neighbors _, ?_⟩
  · rw [mem_neighbors_outward, mem_joined_ofCalls h]
  · rw [mem_neighbors_outward, mem_neighbors_inward]
  · intro reordered hperm
    have h' : ∀ call ∈ reordered, call.HasWholeWeight :=
      fun call hcall => h call (hperm.mem_iff.mpr hcall)
    refine ⟨fun name => ?_, fun a b => ?_⟩
    · rw [mem_names_ofCalls, mem_names_ofCalls]
      simp only [hperm.mem_iff]
    · have hbetween : (between reordered a b).Perm (between calls a b) := hperm.symm.filterMap _
      have hnone : between reordered a b = [] ↔ between calls a b = [] := by
        rw [← List.length_eq_zero_iff, hbetween.length_eq, List.length_eq_zero_iff]
      have hsum : integerSum ((between reordered a b).map (·.given.wholeWeight))
          = integerSum ((between calls a b).map (·.given.wholeWeight)) := (hbetween.map _).sum_eq
      rw [weight_edge?_ofCalls h, weight_edge?_ofCalls h', hsum]
      simp only [hnone]

/-- Three relationships that share an edge, the second without a weight, and one that leads back. -/
def sharedEdge : List Call :=
  [.relationship "ui" "core" "imports" [("strength", .str "high"), (Attributes.weightKey, .int 3)],
    .node "ui" [("type", .str "page")], .relationship "core" "ui" "imports" [],
    .relationship "ui" "core" "extends" [("strength", .str "low")],
    .relationship "ui" "core" "imports" [(Attributes.weightKey, .int (-2))], .node "docs" []]

theorem ofCalls_accumulates_sharedEdge :
    (∀ call ∈ sharedEdge, call.HasWholeWeight) ∧
    (ofCalls sharedEdge).edgesBetween "ui" "core"
      = [⟨"ui", "core", ["imports", "extends"], .whole 2, [("strength", .str "high")]⟩] ∧
    "core" ∈ (ofCalls sharedEdge).neighbors "ui" .outward ∧
    "docs" ∈ (ofCalls sharedEdge.reverse).names := by
  have h : ∀ call ∈ sharedEdge, call.HasWholeWeight := by
    simp [sharedEdge, Call.HasWholeWeight, Attributes.HasWholeWeight, Attributes.weightKey,
      List.lookup_cons]
  obtain ⟨⟨-, hnames⟩, hedges, hneighbors, -, hreordered⟩ := ofCalls_accumulates h
  have hdocs : "docs" ∈ (ofCalls sharedEdge).names :=
    (hnames "docs").mpr ⟨.node "docs" [], by simp [sharedEdge], by simp [Call.names]⟩
  refine ⟨h, (hedges "ui" "core").trans (by rfl), (hneighbors "ui" "core").1.mpr ?_, ?_⟩
  · exact List.cons_ne_nil _ _
  · exact ((hreordered _ (List.reverse_perm sharedEdge).symm).1 "docs").mpr hdocs

end ComponentGraph

end CodeAtlas
