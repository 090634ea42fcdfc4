import CodeAtlas.Syntax.Node

/-!
# Walking a syntax tree

`sites` lists the nodes of a tree whose ancestors are all named, each with its parent, in document
order.  It keeps an explicit list of waiting nodes, so that the depth of the tree does not bound it;
`preorder` is the same walk by recursion on the tree.
-/

namespace CodeAtlas.Syntax

/-- A node together with its parent. -/
structure Site where
  parent : Option Node
  node : Node
deriving Inhabited

namespace Site

/-- The number of nodes in the trees of a list of sites. -/
def sizeAll : List Site → Nat
  | [] => 0
  | s :: ss => s.node.size + sizeAll ss

theorem sizeAll_append (ss ts : List Site) : sizeAll (ss ++ ts) = sizeAll ss + sizeAll ts := by
  induction ss with
  | nil => simp [sizeAll]
  | cons s ss ih => simp [sizeAll, ih, Nat.add_assoc]

/-- The children of a node, each with the node as its parent. -/
def below (n : Node) : List Site := n.children.map (⟨some n, ·⟩)

theorem sizeAll_map (p : Option Node) (ns : List Node) :
    sizeAll (ns.map (Site.mk p)) = Node.sizeAll ns := by
  induction ns with
  | nil => rfl
  | cons n ns ih => simp [sizeAll, Node.sizeAll, ih]

/-- The sites below a list of waiting sites; an unnamed node is passed over with all below it. -/
def walk : List Site → List Site
  | [] => []
  | s :: waiting =>
    if s.node.named then s :: walk (below s.node ++ waiting) else walk waiting
termination_by ss => sizeAll ss
decreasing_by
  · simp only [sizeAll, sizeAll_append, below, sizeAll_map, Node.size_eq]; omega
  · simp only [sizeAll, Node.size_eq]; omega

end Site

/-- The sites of a tree in document order. -/
def Node.sites (root : Node) : List Site := Site.walk [⟨none, root⟩]

mutual
/-- The sites of a tree in document order, by recursion on the tree. -/
def Node.preorder (parent : Option Node) : Node → List Site
  | ⟨kind, field, firstRow, lastRow, text, missing, faulty, children⟩ =>
    let n : Node := ⟨kind, field, firstRow, lastRow, text, missing, faulty, children⟩
    if n.named then ⟨parent, n⟩ :: Node.preorderAll n children else []

/-- The sites of the children of `parent`. -/
def Node.preorderAll (parent : Node) : List Node → List Site
  | [] => []
  | n :: ns => Node.preorder (some parent) n ++ Node.preorderAll parent ns
end

end CodeAtlas.Syntax
