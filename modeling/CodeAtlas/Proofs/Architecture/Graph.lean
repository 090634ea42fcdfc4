import CodeAtlas.Architecture.Graph
import CodeAtlas.Proofs.SortedTexts
import Mathlib.Data.List.Induction
import Mathlib.Data.List.Perm.Basic
import Mathlib.Data.Prod.Basic

/-!
# What the building of a graph keeps to

A graph is built in steps: every step adds a node or a relationship.  Whatever the steps and their
order, no name is that of two nodes, no two edges lead from the same node to the same node, and
edges join nodes of the graph (`wellFormed_ofAdditions`); and the pairs of nodes that are joined are
those that a step joins (`mem_joined_ofAdditions`).  The graph of an architecture is built in this
way (`ofArchitecture_eq_ofAdditions`), so that the dependents of a component are the sources of the
relationships that lead to it (`mem_dependents_ofArchitecture`).
-/

namespace CodeAtlas.ComponentGraph

/-! ### Steps -/

/-- One step in the building of a graph. -/
inductive Addition where
  | node (name : String) (attributes : Attributes)
  | relationship (source target kind : String) (weight : Weight) (attributes : Attributes)

namespace Addition

/-- The pair of nodes that a step joins. -/
def pair? : Addition → Option (String × String)
  | node _ _ => none
  | relationship source target _ _ _ => some (source, target)

/-- The step that adds a component of an architecture. -/
def ofComponent (c : Component) : Addition := node c.name [("type", .str c.type.name)]

/-- The step that adds a relationship of an architecture. -/
def ofRelationship (r : Relationship) : Addition :=
  relationship r.source r.target r.kind.name (.whole r.weight) [("strength", .float r.strength)]

end Addition

/-- The graph after one step. -/
def add (g : ComponentGraph) : Addition → ComponentGraph
  | .node name attributes => g.addNode name attributes
  | .relationship source target kind weight attributes =>
    g.addRelationship source target kind weight attributes

/-- The graph that steps build from nothing. -/
def ofAdditions (steps : List Addition) : ComponentGraph := steps.foldl add empty

/-- The graph of an architecture is built in steps: first its components, then its relationships. -/
theorem ofArchitecture_eq_ofAdditions (components : List Component)
    (relationships : List Relationship) :
    ofArchitecture components relationships
      = ofAdditions (components.map .ofComponent ++ relationships.map .ofRelationship) := by
  rw [ofAdditions, List.foldl_append, List.foldl_map, List.foldl_map]
  rfl

theorem ofAdditions_concat (steps : List Addition) (step : Addition) :
    ofAdditions (steps ++ [step]) = (ofAdditions steps).add step := by
  rw [ofAdditions, ofAdditions, List.foldl_concat]

/-! ### The pairs of nodes that are joined -/

/-- The pairs of nodes that are joined by an edge, in the order of the edges. -/
def joined (g : ComponentGraph) : List (String × String) :=
  g.edges.map fun e => (e.source, e.target)

variable {g : ComponentGraph}

theorem mem_successors {a b : String} : b ∈ g.successors a ↔ (a, b) ∈ g.joined := by
  rw [successors, joined, List.mem_map, List.mem_map]
  constructor
  · rintro ⟨e, he, rfl⟩
    obtain ⟨hmem, hsource⟩ := List.mem_filter.mp he
    exact ⟨e, hmem, by rw [eq_of_beq hsource]⟩
  · rintro ⟨e, he, hpair⟩
    obtain ⟨hsource, htarget⟩ := Prod.mk.inj hpair
    exact ⟨e, List.mem_filter.mpr ⟨he, beq_iff_eq.mpr hsource⟩, htarget⟩

theorem mem_predecessors {a b : String} : a ∈ g.predecessors b ↔ (a, b) ∈ g.joined := by
  rw [predecessors, joined, List.mem_map, List.mem_map]
  constructor
  · rintro ⟨e, he, rfl⟩
    obtain ⟨hmem, htarget⟩ := List.mem_filter.mp he
    exact ⟨e, hmem, by rw [eq_of_beq htarget]⟩
  · rintro ⟨e, he, hpair⟩
    obtain ⟨hsource, htarget⟩ := Prod.mk.inj hpair
    exact ⟨e, List.mem_filter.mpr ⟨he, beq_iff_eq.mpr htarget⟩, hsource⟩

theorem isSome_edge?_iff {a b : String} : (g.edge? a b).isSome = true ↔ (a, b) ∈ g.joined := by
  rw [edge?, List.find?_isSome, joined, List.mem_map]
  simp only [Bool.and_eq_true, beq_iff_eq, Prod.mk.injEq]

/-! ### One step -/

@[simp]
theorem edges_addNode (g : ComponentGraph) (name : String) (attributes : Attributes) :
    (g.addNode name attributes).edges = g.edges := by
  rw [addNode]
  split <;> rfl

@[simp]
theorem joined_addNode (g : ComponentGraph) (name : String) (attributes : Attributes) :
    (g.addNode name attributes).joined = g.joined := by
  rw [joined, edges_addNode, joined]

/-- A node is added after the others, unless it is there. -/
theorem names_addNode (g : ComponentGraph) (name : String) (attributes : Attributes) :
    (g.addNode name attributes).names
      = if name ∈ g.names then g.names else g.names ++ [name] := by
  rw [addNode]
  by_cases h : name ∈ g.names
  · -- attributes are set at the node, and its name stays
    have hfst : (Prod.fst ∘ fun x : String × Attributes =>
        if x.1 = name then (x.1, Attributes.merge x.2 attributes) else (x.1, x.2)) = Prod.fst := by
      funext x
      rw [Function.comp]
      split <;> rfl
    rw [if_pos (List.contains_iff_mem.mpr h), if_pos h, names, List.map_map]
    exact congrArg (List.map · g.nodes) hfst
  · rw [if_neg (fun hc => h (List.contains_iff_mem.mp hc)), if_neg h, names, List.map_append]
    rfl

/-- A pair is joined after the others, unless it is already. -/
theorem joined_addRelationship (g : ComponentGraph) (source target kind : String) (weight : Weight)
    (attributes : Attributes) :
    (g.addRelationship source target kind weight attributes).joined
      = if (source, target) ∈ g.joined then g.joined else g.joined ++ [(source, target)] := by
  rw [addRelationship]
  by_cases h : (source, target) ∈ g.joined
  · -- an edge that is raised joins the same nodes as before
    have hpair : ((fun e : Edge => (e.source, e.target)) ∘ fun e =>
        if Edge.joins e source target then Edge.raise e kind weight else e)
          = fun e => (e.source, e.target) := by
      funext e
      rw [Function.comp]
      split <;> rfl
    rw [if_pos (isSome_edge?_iff.mpr h), if_pos h, joined, List.map_map]
    exact congrArg (List.map · g.edges) hpair
  · rw [if_neg (fun hc => h (isSome_edge?_iff.mp hc)), if_neg h, joined, List.map_append,
      edges_addNode, edges_addNode]
    rfl

/-- A relationship between nodes that are joined adds no node; any other adds those it joins. -/
theorem names_addRelationship (g : ComponentGraph) (source target kind : String) (weight : Weight)
    (attributes : Attributes) :
    (g.addRelationship source target kind weight attributes).names
      = if (source, target) ∈ g.joined then g.names
        else ((g.addNode source []).addNode target []).names := by
  rw [addRelationship]
  by_cases h : (source, target) ∈ g.joined
  · rw [if_pos (isSome_edge?_iff.mpr h), if_pos h]
    rfl
  · rw [if_neg (fun hc => h (isSome_edge?_iff.mp hc)), if_neg h]
    rfl

/-! ### The invariant -/

/-- Nodes have different names, edges join different pairs of nodes, and they join nodes of the
graph. -/
structure WellFormed (g : ComponentGraph) : Prop where
  nodup_names : g.names.Nodup
  nodup_joined : g.joined.Nodup
  mem_names : ∀ {a b}, (a, b) ∈ g.joined → a ∈ g.names ∧ b ∈ g.names

/-- A list in which nothing is repeated stays so if what is missing is added at its end. -/
private theorem nodup_ite_concat {α : Type} [BEq α] [LawfulBEq α] {xs : List α} (h : xs.Nodup)
    (x : α) : (if x ∈ xs then xs else xs ++ [x]).Nodup := by
  by_cases hx : x ∈ xs
  · rwa [if_pos hx]
  · rw [if_neg hx, (List.perm_append_singleton x xs).nodup_iff]
    exact List.nodup_cons.mpr ⟨hx, h⟩

private theorem mem_ite_concat {α : Type} [BEq α] [LawfulBEq α] {xs : List α} {x y : α} :
    y ∈ (if x ∈ xs then xs else xs ++ [x]) ↔ y ∈ xs ∨ y = x := by
  by_cases hx : x ∈ xs
  · rw [if_pos hx]
    exact ⟨Or.inl, fun h => h.elim id fun heq => heq ▸ hx⟩
  · rw [if_neg hx, List.mem_append, List.mem_singleton]

theorem mem_names_addNode {name m : String} {attributes : Attributes} :
    m ∈ (g.addNode name attributes).names ↔ m ∈ g.names ∨ m = name := by
  rw [names_addNode, mem_ite_concat]

theorem mem_joined_addRelationship {source target kind : String} {weight : Weight}
    {attributes : Attributes} {pair : String × String} :
    pair ∈ (g.addRelationship source target kind weight attributes).joined
      ↔ pair ∈ g.joined ∨ pair = (source, target) := by
  rw [joined_addRelationship, mem_ite_concat]

namespace WellFormed

theorem empty : WellFormed empty where
  nodup_names := List.nodup_nil
  nodup_joined := List.nodup_nil
  mem_names := fun h => absurd h List.not_mem_nil

theorem addNode (h : WellFormed g) (name : String) (attributes : Attributes) :
    WellFormed (g.addNode name attributes) where
  nodup_names := by
    rw [names_addNode]
    exact nodup_ite_concat h.nodup_names name
  nodup_joined := by
    rw [joined_addNode]
    exact h.nodup_joined
  mem_names := by
    intro a b hab
    rw [joined_addNode] at hab
    obtain ⟨ha, hb⟩ := h.mem_names hab
    exact ⟨mem_names_addNode.mpr (Or.inl ha), mem_names_addNode.mpr (Or.inl hb)⟩

/-- The nodes that a relationship joins are in the graph, whether it added them or not. -/
theorem mem_names_addRelationship (h : WellFormed g) {source target kind m : String}
    {weight : Weight} {attributes : Attributes} :
    m ∈ (g.addRelationship source target kind weight attributes).names
      ↔ m ∈ g.names ∨ m = source ∨ m = target := by
  rw [names_addRelationship]
  by_cases hjoined : (source, target) ∈ g.joined
  · obtain ⟨hsource, htarget⟩ := h.mem_names hjoined
    rw [if_pos hjoined]
    refine ⟨Or.inl, ?_⟩
    rintro (hm | rfl | rfl)
    · exact hm
    · exact hsource
    · exact htarget
  · rw [if_neg hjoined, mem_names_addNode, mem_names_addNode, or_assoc]

theorem addRelationship (h : WellFormed g) (source target kind : String) (weight : Weight)
    (attributes : Attributes) :
    WellFormed (g.addRelationship source target kind weight attributes) where
  nodup_names := by
    rw [names_addRelationship]
    split
    · exact h.nodup_names
    · exact ((h.addNode source []).addNode target []).nodup_names
  nodup_joined := by
    rw [joined_addRelationship]
    exact nodup_ite_concat h.nodup_joined (source, target)
  mem_names := by
    intro a b hab
    rw [h.mem_names_addRelationship, h.mem_names_addRelationship]
    rcases mem_joined_addRelationship.mp hab with hold | hnew
    · obtain ⟨ha, hb⟩ := h.mem_names hold
      exact ⟨Or.inl ha, Or.inl hb⟩
    · obtain ⟨rfl, rfl⟩ := Prod.mk.inj hnew
      exact ⟨Or.inr (Or.inl rfl), Or.inr (Or.inr rfl)⟩

theorem add (h : WellFormed g) (step : Addition) : WellFormed (g.add step) := by
  cases step with
  | node name attributes => exact h.addNode name attributes
  | relationship source target kind weight attributes =>
    exact h.addRelationship source target kind weight attributes

end WellFormed

/-- A step joins the pair that it names, and no other. -/
theorem mem_joined_add {step : Addition} {pair : String × String} :
    pair ∈ (g.add step).joined ↔ pair ∈ g.joined ∨ step.pair? = some pair := by
  cases step with
  | node name attributes =>
    rw [add, joined_addNode, Addition.pair?]
    simp only [reduceCtorEq, or_false]
  | relationship source target kind weight attributes =>
    rw [add, mem_joined_addRelationship, Addition.pair?, Option.some.injEq, eq_comm]

/-! ### All steps -/

/-- What steps build is well formed. -/
theorem wellFormed_ofAdditions (steps : List Addition) : WellFormed (ofAdditions steps) := by
  induction steps using List.reverseRecOn with
  | nil => exact WellFormed.empty
  | append_singleton steps step ih =>
    rw [ofAdditions_concat]
    exact ih.add step

/-- What is joined is what some step joins. -/
theorem mem_joined_ofAdditions {steps : List Addition} {pair : String × String} :
    pair ∈ (ofAdditions steps).joined ↔ ∃ step ∈ steps, step.pair? = some pair := by
  induction steps using List.reverseRecOn with
  | nil => exact ⟨fun h => absurd h List.not_mem_nil, fun ⟨_, h, _⟩ => absurd h List.not_mem_nil⟩
  | append_singleton steps step ih =>
    rw [ofAdditions_concat, mem_joined_add, ih]
    simp only [List.mem_append, List.mem_singleton, or_and_right, exists_or, exists_eq_left]

/-- The order of the steps does not matter to what is joined. -/
theorem mem_joined_congr {steps others : List Addition} (h : steps.Perm others)
    (pair : String × String) :
    pair ∈ (ofAdditions steps).joined ↔ pair ∈ (ofAdditions others).joined := by
  simp only [mem_joined_ofAdditions, h.mem_iff]

/-! ### Dependents -/

/-- Dependents are named in order and each once. -/
theorem pairwise_dependents (g : ComponentGraph) (name : String) :
    (g.dependents name).Pairwise (· < ·) :=
  pairwise_lt_mergeSort_eraseDups _

section Architecture

variable {components : List Component} {relationships : List Relationship}

/-- Components are nodes of their own: it takes a relationship to join two of them. -/
theorem mem_joined_ofArchitecture {s t : String} :
    (s, t) ∈ (ofArchitecture components relationships).joined
      ↔ ∃ r ∈ relationships, r.source = s ∧ r.target = t := by
  rw [ofArchitecture_eq_ofAdditions, mem_joined_ofAdditions]
  simp only [List.mem_append, List.mem_map]
  constructor
  · rintro ⟨step, ⟨c, -, rfl⟩ | ⟨r, hr, rfl⟩, hpair⟩
    · exact absurd hpair (by simp [Addition.ofComponent, Addition.pair?])
    · exact ⟨r, hr, Prod.mk.inj (Option.some.inj hpair)⟩
  · rintro ⟨r, hr, rfl, rfl⟩
    exact ⟨.ofRelationship r, Or.inr ⟨r, hr, rfl⟩, rfl⟩

theorem mem_dependents_ofArchitecture {name other : String} :
    other ∈ (ofArchitecture components relationships).dependents name
      ↔ ∃ r ∈ relationships, r.source = other ∧ r.target = name := by
  rw [dependents, neighbors, sortedNames, mem_mergeSort_eraseDups, mem_predecessors,
    mem_joined_ofArchitecture]

end Architecture

end CodeAtlas.ComponentGraph
