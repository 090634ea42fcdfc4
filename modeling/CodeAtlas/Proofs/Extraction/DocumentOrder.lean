import CodeAtlas.Proofs.Extraction.Recorded
import Mathlib.Algebra.BigOperators.Group.List.Basic
import Mathlib.Data.List.Induction
import Mathlib.Logic.Function.Iterate

/-!
# The walk with a stack is the document order

The nodes of a tree are handed over by a loop that keeps the waiting nodes on a stack: a turn of it
takes the last one, and puts the children of a named node on the stack in reverse.  `Visit.turn` is
one turn, at positions, so that two nodes that look alike are told apart.

A turn does not change how the loop ends if what waits is walked by recursion (`turn_spec`).  Hence
the loop empties any stack within as many turns as there are nodes in the trees that wait, and hands
over what the walk by recursion comes to in each of these trees, the last tree first
(`exists_turns`).  Thus a tree is handed over in document order, which is the lexicographic order of
positions (`visit_follows_document`).
-/

namespace CodeAtlas.Syntax.Node

variable {enter : Node → Bool}

/-! ### Positions in document order -/

theorem pairwise_indices (cs : List Node) : (cs.zipIdx.map Prod.snd).Pairwise (· < ·) := by
  rw [List.zipIdx_map_snd]
  exact List.pairwise_lt_range'

theorem range_length_eq (cs : List Node) : List.range cs.length = cs.zipIdx.map Prod.snd := by
  rw [List.zipIdx_map_snd, List.range_eq_range']

/-- A node is come to before the nodes below it, and these in the order of the children. -/
theorem pairwise_reach (n : Node) : (reach enter n).Pairwise (· < ·) := by
  induction n using children_induction with
  | step n ih =>
  rw [reach_eq, List.pairwise_cons, List.pairwise_flatMap]
  refine ⟨?_, ?_, ?_⟩
  · intro p hp
    obtain ⟨x, -, hx⟩ := List.mem_flatMap.mp hp
    split_ifs at hx
    · obtain ⟨q, -, rfl⟩ := List.mem_map.mp hx
      exact List.nil_lt_cons _ _
    · exact absurd hx List.not_mem_nil
  · intro x hx
    split_ifs
    · refine List.pairwise_map.mpr ((ih x.1 (List.fst_mem_of_mem_zipIdx hx)).imp fun h => ?_)
      exact List.cons_lt_cons_iff.mpr (Or.inr ⟨rfl, h⟩)
    · exact List.Pairwise.nil
  · -- positions below different children are ordered by the indices of these
    have hidx := pairwise_indices n.children
    rw [List.pairwise_map] at hidx
    refine hidx.imp fun {x y} hlt p hp q hq => ?_
    split_ifs at hp hq
    · obtain ⟨p, -, rfl⟩ := List.mem_map.mp hp
      obtain ⟨q, -, rfl⟩ := List.mem_map.mp hq
      exact List.cons_lt_cons_iff.mpr (Or.inl hlt)
    all_goals exact absurd ‹_ ∈ []› List.not_mem_nil

theorem pairwise_visited (root : Node) : root.visited.Pairwise (· < ·) := by
  unfold visited
  split_ifs
  · exact pairwise_reach root
  · exact List.Pairwise.nil

/-- The positions that are visited are those of the nodes that are named and have named ancestors
only. -/
theorem mem_visited {root : Node} {p : Position} : p ∈ root.visited ↔
    (∃ n, root.at? p = some n) ∧
      ∀ q m, q <+: p → root.at? q = some m → m.named = true := by
  unfold visited
  split_ifs with hnamed
  · rw [mem_reach, enters_iff]
    refine and_congr_right fun _ => ⟨fun hway q m hq hm => ?_, fun hway q m _ hq => hway q m hq⟩
    by_cases hnil : q = []
    · subst hnil
      rwa [← Option.some.inj hm]
    · exact hway q m hnil hq hm
  · refine ⟨fun h => absurd h List.not_mem_nil, fun h => absurd ?_ hnamed⟩
    exact h.2 [] root (List.nil_prefix) rfl

/-! ### Positions below a position -/

theorem siteFrom_append {p : Position} (q : Position) : ∀ {parent : Option Node} {n m : Node},
    n.at? p = some m → siteFrom parent n (p ++ q) = siteFrom (siteFrom parent n p).parent m q := by
  induction p with
  | nil =>
    intro parent n m h
    obtain rfl := Option.some.inj h
    rfl
  | cons i p ih =>
    intro parent n m h
    rw [at?_cons] at h
    obtain ⟨c, hc, hm⟩ := Option.bind_eq_some_iff.mp h
    rw [List.cons_append, siteFrom_cons hc, siteFrom_cons hc]
    exact ih hm

/-- The positions of the children of the node at a position. -/
def childPositions (root : Node) (p : Position) : List Position :=
  (List.range (root.siteAt p).node.children.length).map fun i => p ++ [i]

/-- The positions that the walk of the part of a tree at a position comes to. -/
def visitedFrom (root : Node) (p : Position) : List Position :=
  (root.siteAt p).node.visited.map (p ++ ·)

variable {root n : Node} {p : Position}

theorem siteAt_append (hp : root.at? p = some n) (q : Position) :
    root.siteAt (p ++ q) = siteFrom (root.siteAt p).parent n q := siteFrom_append q hp

theorem node_siteAt (h : root.at? p = some n) : (root.siteAt p).node = n := siteFrom_node h

theorem at?_childPositions (hp : root.at? p = some n) {q : Position}
    (hq : q ∈ root.childPositions p) : ∃ c ∈ n.children, root.at? q = some c := by
  rw [childPositions, node_siteAt hp] at hq
  obtain ⟨i, hi, rfl⟩ := List.mem_map.mp hq
  have hlt := List.mem_range.mp hi
  refine ⟨n.children[i], List.getElem_mem hlt, ?_⟩
  rw [at?_append, hp, Option.bind_some, at?_cons, List.getElem?_eq_getElem hlt]
  rfl

theorem siteAt_child (hp : root.at? p = some n) {i : Nat} {c : Node}
    (hc : n.children[i]? = some c) : root.siteAt (p ++ [i]) = ⟨some n, c⟩ := by
  rw [siteAt_append hp, siteFrom_cons hc, siteFrom]

/-- Below a position that is come to are the positions of the children that pass the test, and what
is below these. -/
theorem map_reach_eq (hp : root.at? p = some n) :
    (reach enter n).map (p ++ ·) = p :: (root.childPositions p).flatMap fun q =>
      if enter (root.siteAt q).node then (reach enter (root.siteAt q).node).map (q ++ ·)
      else [] := by
  rw [reach_eq, childPositions, node_siteAt hp, List.map_cons, List.append_nil, List.map_flatMap,
    List.flatMap_map, range_length_eq, List.flatMap_map]
  refine congrArg _ (List.flatMap_congr fun x hx => ?_)
  have hchild := List.mem_zipIdx_iff_getElem?.mp hx
  rw [siteAt_child hp hchild]
  split_ifs
  · rw [List.map_map]
    exact List.map_congr_left fun q _ => (List.append_assoc p [x.2] q).symm
  · rfl

/-- The walk of a part comes to its first node and then to the parts below, if it is named. -/
theorem visitedFrom_eq (hp : root.at? p = some n) :
    root.visitedFrom p = if n.named then p :: (root.childPositions p).flatMap root.visitedFrom
      else [] := by
  rw [visitedFrom, node_siteAt hp, visited]
  split_ifs
  · rw [map_reach_eq hp]
    refine congrArg _ (List.flatMap_congr fun q _ => ?_)
    rw [visitedFrom, visited]
    split_ifs <;> rfl
  · rfl

theorem map_siteAt_visitedFrom (hp : root.at? p = some n) :
    (root.visitedFrom p).map root.siteAt = Site.walk [root.siteAt p] := by
  rw [Site.walk_eq, List.flatMap_singleton, node_siteAt hp, preorder_eq_map, visitedFrom,
    node_siteAt hp, List.map_map]
  exact List.map_congr_left fun q _ => siteAt_append hp q

end CodeAtlas.Syntax.Node

namespace CodeAtlas

open CodeAtlas.Syntax

namespace Findings

theorem append_eq (a b : Findings) : a ++ b = ⟨a.functions ++ b.functions, a.classes ++ b.classes,
    a.imports ++ b.imports, a.exports ++ b.exports⟩ := rfl

theorem ofSites_nil : ofSites [] = empty := rfl

theorem ofSites_cons (s : Site) (ss : List Site) :
    ofSites (s :: ss) = atSite s ++ ofSites ss := rfl

theorem append_empty (a : Findings) : a ++ empty = a := by
  simp only [append_eq, empty, List.append_nil]

theorem empty_append (a : Findings) : empty ++ a = a := by
  simp only [append_eq, empty, List.nil_append]

theorem append_assoc (a b c : Findings) : a ++ b ++ c = a ++ (b ++ c) := by
  simp only [append_eq, List.append_assoc]

/-- Findings one after the other. -/
def concat (fs : List Findings) : Findings :=
  ⟨fs.flatMap (·.functions), fs.flatMap (·.classes), fs.flatMap (·.imports),
    fs.flatMap (·.exports)⟩

theorem ofSites_flatMap {α : Type} (f : α → List Site) (xs : List α) :
    ofSites (xs.flatMap f) = concat (xs.map fun x => ofSites (f x)) := by
  simp only [ofSites, concat, List.flatMap_assoc, List.flatMap_map]

/-- What is found in the part of a tree at a site. -/
def ofPart (s : Site) : Findings := ofSites (Site.walk [s])

theorem ofPart_root (root : Node) : ofPart ⟨none, root⟩ = ofTree root := rfl

/-- What is found in a part of a tree is what is found at its first node and then in the parts at
the children of the node in turn; in an unnamed part there is nothing. -/
theorem ofPart_eq (s : Site) : ofPart s
    = if s.node.named then atSite s ++ concat ((Site.below s.node).map ofPart) else empty := by
  have hwalk : ∀ t : Site, Site.walk [t] = t.node.preorder t.parent := fun t => by
    rw [Site.walk_eq, List.flatMap_singleton]
  rw [ofPart, hwalk, Node.preorder_eq]
  split_ifs
  · rw [ofSites_cons, ofSites_flatMap, Site.below, List.map_map]
    refine congrArg (atSite s ++ concat ·) (List.map_congr_left fun c _ => ?_)
    rw [Function.comp, ofPart, hwalk]
  · rfl

end Findings

/-- A loop whose turns keep an invariant and lower a measure until it is over ends within as many
turns as the measure says. -/
theorem exists_iterate_over {σ : Type} (turn : σ → σ) (measure : σ → Nat) (Kept Over : σ → Prop)
    (hturn : ∀ s, Kept s → ¬ Over s → Kept (turn s) ∧ measure (turn s) < measure s) {s : σ}
    (hs : Kept s) : ∃ k ≤ measure s, Kept (turn^[k] s) ∧ Over (turn^[k] s) := by
  induction hm : measure s using Nat.strongRecOn generalizing s with
  | _ m ih =>
  by_cases hover : Over s
  · exact ⟨0, Nat.zero_le m, hs, hover⟩
  · obtain ⟨hkept, hless⟩ := hturn s hs hover
    obtain ⟨k, hk, hend⟩ := ih _ (hm ▸ hless) hkept rfl
    refine ⟨k + 1, by omega, ?_⟩
    rwa [Function.iterate_succ_apply]

namespace Extraction

open CodeAtlas.Syntax.Node

/-- The state of the loop: the positions that wait on the stack, of which the last is taken next,
the positions of the nodes that have been handed over, and what has been found there. -/
structure Visit where
  stack : List Position
  handled : List Position
  found : Findings

namespace Visit

/-- The part of the tree at a position is to be walked. -/
def start (p : Position) : Visit := ⟨[p], [], Findings.empty⟩

/-- One turn of the loop: an unnamed node is dropped; a named one is handed over, and its children
are put on the stack in reverse.  With nothing on the stack the loop is over. -/
def turn (root : Node) (v : Visit) : Visit :=
  match v.stack.getLast? with
  | none => v
  | some p =>
    if (root.siteAt p).node.named then
      ⟨v.stack.dropLast ++ (root.childPositions p).reverse, v.handled ++ [p],
        v.found ++ Findings.atSite (root.siteAt p)⟩
    else ⟨v.stack.dropLast, v.handled, v.found⟩

variable {root : Node}

theorem turn_concat (stack : List Position) (p : Position) (handled : List Position)
    (found : Findings) : turn root ⟨stack ++ [p], handled, found⟩
      = if (root.siteAt p).node.named then
          ⟨stack ++ (root.childPositions p).reverse, handled ++ [p],
            found ++ Findings.atSite (root.siteAt p)⟩
        else ⟨stack, handled, found⟩ := by
  simp only [turn, List.getLast?_concat, List.dropLast_concat]

/-- The number of nodes in the trees at positions. -/
def weight (root : Node) (ps : List Position) : Nat :=
  (ps.map fun p => (root.siteAt p).node.size).sum

theorem weight_append (ps qs : List Position) :
    weight root (ps ++ qs) = weight root ps + weight root qs := by
  rw [weight, List.map_append, List.sum_append]
  rfl

theorem weight_reverse (ps : List Position) : weight root ps.reverse = weight root ps := by
  rw [weight, List.map_reverse, List.sum_reverse]
  rfl

theorem sizeAll_eq_sum (ns : List Node) : sizeAll ns = (ns.map size).sum := by
  induction ns with
  | nil => rfl
  | cons n ns ih => rw [sizeAll, ih, List.map_cons, List.sum_cons]

theorem weight_concat (ps : List Position) {p : Position} {n : Node} (hp : root.at? p = some n) :
    weight root (ps ++ [p]) = weight root ps + n.size := by
  rw [weight_append, weight, weight, List.map_singleton, List.sum_singleton, node_siteAt hp]

/-- Below a node there is one node less. -/
theorem weight_childPositions {p : Position} {n : Node} (hp : root.at? p = some n) :
    weight root (root.childPositions p) + 1 = n.size := by
  rw [weight, childPositions, node_siteAt hp, size_eq, sizeAll_eq_sum, range_length_eq]
  conv_rhs => rw [← List.zipIdx_map_fst 0 n.children]
  rw [List.map_map, List.map_map, List.map_map]
  refine congrArg (List.sum · + 1) (List.map_congr_left fun x hx => ?_)
  have hchild := List.mem_zipIdx_iff_getElem?.mp hx
  exact congrArg (·.node.size) (siteAt_child hp hchild)

/-- There are nodes at the positions that wait. -/
def IsSound (root : Node) (v : Visit) : Prop := ∀ p ∈ v.stack, ∃ n, root.at? p = some n

/-- How the loop ends if what waits is walked by recursion, the last part first. -/
def finished (root : Node) (v : Visit) : Visit :=
  ⟨[], v.handled ++ v.stack.reverse.flatMap root.visitedFrom, v.found
    ++ Findings.ofSites ((v.stack.reverse.flatMap root.visitedFrom).map root.siteAt)⟩

theorem finished_of_stack_eq_nil {v : Visit} (h : v.stack = []) : v.finished root = v := by
  obtain ⟨stack, handled, found⟩ := v
  obtain rfl : stack = [] := h
  simp only [finished, List.reverse_nil, List.flatMap_nil, List.append_nil, List.map_nil,
    Findings.ofSites_nil, Findings.append_empty]

/-- A turn leaves a smaller stack of positions, and does not change how the loop ends. -/
theorem turn_spec {v : Visit} (hsound : v.IsSound root) (hstack : v.stack ≠ []) :
    (turn root v).IsSound root ∧ weight root (turn root v).stack < weight root v.stack ∧
      (turn root v).finished root = v.finished root := by
  obtain ⟨stack, handled, found⟩ := v
  obtain ⟨stack, p, rfl⟩ := (List.eq_nil_or_concat' stack).resolve_left hstack
  obtain ⟨n, hp⟩ := hsound p (by simp)
  have hrest : ∀ q ∈ stack, ∃ n, root.at? q = some n := fun q hq => hsound q (by simp [hq])
  have hweight := weight_concat stack hp
  have hbelow := weight_childPositions hp
  have hvisited : (stack ++ [p]).reverse.flatMap root.visitedFrom
      = root.visitedFrom p ++ stack.reverse.flatMap root.visitedFrom := by
    rw [List.reverse_concat, List.flatMap_cons]
  rw [visitedFrom_eq hp] at hvisited
  rw [turn_concat, node_siteAt hp]
  split_ifs at hvisited ⊢ with hnamed
  · refine ⟨fun q hq => ?_, ?_, ?_⟩
    · rcases List.mem_append.mp hq with hq | hq
      · exact hrest q hq
      · obtain ⟨c, -, hc⟩ := at?_childPositions hp (List.mem_reverse.mp hq)
        exact ⟨c, hc⟩
    · rw [hweight, weight_append, weight_reverse]
      omega
    · -- the children wait in reverse, so their parts come next and in order
      simp only [finished, hvisited]
      simp only [List.reverse_append, List.reverse_reverse, List.flatMap_append, List.append_assoc,
        List.cons_append, List.nil_append, List.map_cons, Findings.ofSites_cons,
        Findings.append_assoc]
  · have hless : weight root stack < weight root (stack ++ [p]) := by omega
    exact ⟨hrest, hless, by simp only [finished, hvisited, List.nil_append]⟩

/-- The loop empties any stack of positions of the tree, and has then handed over what the walk by
recursion comes to in the parts at them, the last part first. -/
theorem exists_turns {v : Visit} (hsound : v.IsSound root) :
    ∃ k ≤ weight root v.stack, (turn root)^[k] v = v.finished root := by
  have hturn : ∀ w : Visit, w.IsSound root ∧ w.finished root = v.finished root → w.stack ≠ [] →
      ((turn root w).IsSound root ∧ (turn root w).finished root = v.finished root) ∧
        weight root (turn root w).stack < weight root w.stack := fun w ⟨hw, hkept⟩ hstack => by
    obtain ⟨hnext, hless, hfinished⟩ := turn_spec hw hstack
    exact ⟨⟨hnext, hfinished.trans hkept⟩, hless⟩
  obtain ⟨k, hk, ⟨-, hfinished⟩, hover⟩ := exists_iterate_over (turn root)
    (fun w => weight root w.stack) _ (fun w => w.stack = []) hturn ⟨hsound, rfl⟩
  exact ⟨k, hk, by rw [← hfinished, finished_of_stack_eq_nil hover]⟩

theorem exists_turns_start {p : Position} {n : Node} (hp : root.at? p = some n) :
    ∃ k ≤ n.size, (turn root)^[k] (start p)
      = ⟨[], root.visitedFrom p, Findings.ofPart (root.siteAt p)⟩ := by
  have hsound : (start p).IsSound root := by simp [IsSound, start, hp]
  obtain ⟨k, hk, hrun⟩ := exists_turns hsound
  refine ⟨k, by simpa [start, weight, node_siteAt hp] using hk, ?_⟩
  rw [hrun, Findings.ofPart, ← map_siteAt_visitedFrom hp]
  simp only [finished, start, List.reverse_singleton, List.flatMap_singleton, List.nil_append,
    Findings.empty_append]

end Visit

/-- The loop with a stack walks a tree in document order: it ends within as many turns as the tree
has nodes, and has then handed over the nodes that are named and have named ancestors only, each
once and in lexicographic order of the positions, and found what the tree has.  So each list of
findings of a tree is what is found at the root and then what the loop, started at a child, finds
in each of the children in turn. -/
theorem visit_follows_document (root : Node) :
    (∃ k ≤ root.size,
      (Visit.turn root)^[k] (Visit.start []) = ⟨[], root.visited, Findings.ofTree root⟩) ∧
    (∀ p, p ∈ root.visited ↔ (∃ n, root.at? p = some n) ∧
      ∀ q m, q <+: p → root.at? q = some m → m.named = true) ∧
    root.visited.Nodup ∧ root.visited.Pairwise (· < ·) ∧
    (∀ i : Fin root.children.length, ∃ k ≤ root.size, (Visit.turn root)^[k] (Visit.start [i.val])
      = ⟨[], root.visitedFrom [i.val], Findings.ofPart ⟨some root, root.children[i]⟩⟩) ∧
    Findings.ofTree root = if root.named then Findings.atSite ⟨none, root⟩ ++ Findings.concat
        (root.children.map fun c => Findings.ofPart ⟨some root, c⟩)
      else Findings.empty := by
  have hroot : root.at? [] = some root := rfl
  refine ⟨?_, fun p => mem_visited, nodup_visited root, pairwise_visited root, fun i => ?_, ?_⟩
  · obtain ⟨k, hk, hrun⟩ := Visit.exists_turns_start hroot
    have hvisited : root.visitedFrom [] = root.visited := List.map_id _
    refine ⟨k, hk, ?_⟩
    rw [hrun, hvisited]
    rfl
  · have hget : root.children[i.val]? = some root.children[i] := List.getElem?_eq_getElem i.isLt
    have hchild : root.at? [i.val] = some root.children[i] := by
      rw [at?_cons, hget]
      rfl
    obtain ⟨k, hk, hrun⟩ := Visit.exists_turns_start hchild
    have hsite : root.siteAt [i.val] = ⟨some root, root.children[i]⟩ := siteAt_child hroot hget
    refine ⟨k, hk.trans ?_, by rw [hrun, hsite]⟩
    have hle := size_le_sizeAll (List.getElem_mem i.isLt)
    have hsize := size_eq root
    exact hle.trans (by omega)
  · rw [← Findings.ofPart_root, Findings.ofPart_eq, Site.below, List.map_map]
    rfl

end Extraction

end CodeAtlas
