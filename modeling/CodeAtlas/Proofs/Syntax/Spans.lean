import CodeAtlas.Proofs.Syntax.Position

/-!
# Nested spans

The spans of a tree nest if every node ends no sooner than it begins, holds its children, and has
each child end before the next one begins; a row may be shared (`Nests`).  Then all sites of the tree
lie within its span (`Nests.of_mem_sites`), and the document walk comes to them in the order in which
they begin (`Nests.pairwise_sites`): what lies below one child begins before the child ends, and so
no later than what lies below the next.
-/

namespace CodeAtlas.Syntax.Node

/-- The node begins no sooner and ends no later than the other. -/
def LiesWithin (n outer : Node) : Prop := outer.firstRow ≤ n.firstRow ∧ n.lastRow ≤ outer.lastRow

instance (n outer : Node) : Decidable (LiesWithin n outer) := inferInstanceAs (Decidable (_ ∧ _))

theorem LiesWithin.refl (n : Node) : n.LiesWithin n :=
  ⟨Nat.le_refl _, Nat.le_refl _⟩

theorem LiesWithin.trans {n middle outer : Node} (h : n.LiesWithin middle)
    (h' : middle.LiesWithin outer) : n.LiesWithin outer :=
  ⟨Nat.le_trans h'.1 h.1, Nat.le_trans h.2 h'.2⟩

/-- The node ends no sooner than it begins, and its children lie within it, one after the other. -/
def HoldsChildren (n : Node) : Prop :=
  n.firstRow ≤ n.lastRow ∧ (∀ c ∈ n.children, c.LiesWithin n) ∧
    n.children.Pairwise fun c d => c.lastRow ≤ d.firstRow

instance (n : Node) : Decidable (HoldsChildren n) := inferInstanceAs (Decidable (_ ∧ _ ∧ _))

/-- The spans of a tree nest. -/
def Nests (root : Node) : Prop := ∀ p ∈ root.positions, ∀ n ∈ root.at? p, n.HoldsChildren

instance (root : Node) : Decidable (Nests root) :=
  inferInstanceAs (Decidable (∀ p ∈ root.positions, ∀ n ∈ root.at? p, n.HoldsChildren))

namespace Nests

variable {root : Node}

theorem of_at? (h : root.Nests) {p : Position} {n : Node} (hn : root.at? p = some n) :
    n.HoldsChildren :=
  h p (mem_positions.mpr ⟨n, hn⟩) n hn

theorem self (h : root.Nests) : root.HoldsChildren := of_at? h (rfl : root.at? [] = some root)

theorem child (h : root.Nests) {c : Node} (hc : c ∈ root.children) : c.Nests := by
  obtain ⟨i, hi⟩ := List.mem_iff_getElem?.mp hc
  intro p _ n hn
  have hat : root.at? (i :: p) = some n := by
    rw [at?_cons, hi]
    exact hn
  exact of_at? h hat

/-- What the walk comes to nests and lies within the tree. -/
theorem of_mem_preorder (h : root.Nests) {parent : Option Node} {s : Site}
    (hs : s ∈ preorder parent root) : s.node.Nests ∧ s.node.LiesWithin root := by
  induction root using children_induction generalizing parent with
  | step n ih =>
  rw [preorder_eq] at hs
  split_ifs at hs
  · rcases List.mem_cons.mp hs with rfl | hs
    · exact ⟨h, .refl n⟩
    · obtain ⟨c, hc, hs⟩ := List.mem_flatMap.mp hs
      obtain ⟨hnests, hwithin⟩ := ih c hc (h.child hc) hs
      exact ⟨hnests, hwithin.trans (h.self.2.1 c hc)⟩
  · exact absurd hs List.not_mem_nil

theorem of_mem_sites (h : root.Nests) {s : Site} (hs : s ∈ root.sites) :
    s.node.Nests ∧ s.node.LiesWithin root :=
  of_mem_preorder h (sites_eq_preorder root ▸ hs)

theorem pairwise_preorder (h : root.Nests) (parent : Option Node) :
    (preorder parent root).Pairwise fun s t => s.node.firstRow ≤ t.node.firstRow := by
  induction root using children_induction generalizing parent with
  | step n ih =>
  rw [preorder_eq]
  split_ifs
  · refine List.pairwise_cons.mpr ⟨fun t ht => ?_, List.pairwise_flatMap.mpr ⟨fun c hc => ?_, ?_⟩⟩
    · obtain ⟨c, hc, ht⟩ := List.mem_flatMap.mp ht
      exact ((of_mem_preorder (h.child hc) ht).2.trans (h.self.2.1 c hc)).1
    · exact ih c hc (h.child hc) _
    · -- what lies below a child begins before the child ends, so before all below the next one
      refine h.self.2.2.imp_of_mem fun {c d} hc hd hnext s hs t ht => ?_
      obtain ⟨hnests, hbefore⟩ := of_mem_preorder (h.child hc) hs
      obtain ⟨-, hafter⟩ := of_mem_preorder (h.child hd) ht
      calc s.node.firstRow ≤ s.node.lastRow := hnests.self.1
        _ ≤ c.lastRow := hbefore.2
        _ ≤ d.firstRow := hnext
        _ ≤ t.node.firstRow := hafter.1
  · exact List.Pairwise.nil

theorem pairwise_sites (h : root.Nests) :
    root.sites.Pairwise fun s t => s.node.firstRow ≤ t.node.firstRow := by
  rw [sites_eq_preorder]
  exact h.pairwise_preorder none

end Nests

end CodeAtlas.Syntax.Node
