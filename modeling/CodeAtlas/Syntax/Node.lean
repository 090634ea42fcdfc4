import CodeAtlas.Syntax.Kind

/-!
# Concrete syntax trees

A `Node` carries its kind, the field it fills in its parent, the rows it spans, its text and its
children in source order.  Rows count from zero.  `missing` marks a node that the grammar demanded
and the text did not have; `faulty` says that the node or something below it is an error or missing.
-/

namespace CodeAtlas.Syntax

/-- A node of a concrete syntax tree. -/
structure Node where
  kind : Kind
  field : Option Field
  firstRow : Nat
  lastRow : Nat
  text : String
  missing : Bool
  faulty : Bool
  children : List Node
deriving Inhabited

namespace Node

/-- The node was built by `r`. -/
def isRule (n : Node) (r : Rule) : Bool := n.kind == .rule r

/-- The node is the token spelled `s`. -/
def isToken (n : Node) (s : String) : Bool := n.kind == .token s

/-- The node was built by a rule of the grammar. -/
def named (n : Node) : Bool := n.kind.named

/-- The children that rules have built. -/
def namedChildren (n : Node) : List Node := n.children.filter named

/-- The first child that fills the field `f`. -/
def child? (n : Node) (f : Field) : Option Node := n.children.find? (·.field == some f)

/-- Some child is the token spelled `s`. -/
def hasToken (n : Node) (s : String) : Bool := n.children.any (·.isToken s)

/-- The line, counted from one, on which the node begins. -/
def line (n : Node) : Nat := n.firstRow + 1

/-- The line, counted from one, on which the node ends. -/
def endLine (n : Node) : Nat := n.lastRow + 1

mutual
/-- The number of nodes in the tree. -/
def size : Node → Nat
  | ⟨_, _, _, _, _, _, _, children⟩ => sizeAll children + 1

/-- The number of nodes in a list of trees. -/
def sizeAll : List Node → Nat
  | [] => 0
  | n :: ns => size n + sizeAll ns
end

theorem size_eq (n : Node) : n.size = sizeAll n.children + 1 := by
  cases n; rfl

theorem sizeAll_append (ns ms : List Node) : sizeAll (ns ++ ms) = sizeAll ns + sizeAll ms := by
  induction ns with
  | nil => simp [sizeAll]
  | cons n ns ih => simp [sizeAll, ih, Nat.add_assoc]

end Node

end CodeAtlas.Syntax
