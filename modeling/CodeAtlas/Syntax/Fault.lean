import CodeAtlas.Syntax.Node

/-!
# Faults in a syntax tree

A fault is an error node or a missing node.  `firstFault` searches the tree in document order and
skips every subtree that is not marked faulty; `firstFaultExhaustive` looks at every node.
-/

namespace CodeAtlas.Syntax.Node

/-- The node itself is an error or missing. -/
def isFault (n : Node) : Bool := n.isRule .error || n.missing

/-- The first fault below a list of waiting nodes, entering only those marked faulty. -/
def firstFaultFrom : List Node → Option Node
  | [] => none
  | n :: waiting =>
    if n.isFault then some n
    else if n.faulty then firstFaultFrom (n.children ++ waiting)
    else firstFaultFrom waiting
termination_by ns => sizeAll ns
decreasing_by
  all_goals simp only [sizeAll, sizeAll_append, size_eq]; omega

/-- The first fault of a tree in document order, found without entering unmarked subtrees. -/
def firstFault (root : Node) : Option Node := firstFaultFrom [root]

mutual
/-- The first fault of a tree in document order, looking at every node. -/
def firstFaultExhaustive : Node → Option Node
  | ⟨kind, field, firstRow, lastRow, text, missing, faulty, children⟩ =>
    if isFault ⟨kind, field, firstRow, lastRow, text, missing, faulty, children⟩ then
      some ⟨kind, field, firstRow, lastRow, text, missing, faulty, children⟩
    else firstFaultAmong children

/-- The first fault among a list of trees. -/
def firstFaultAmong : List Node → Option Node
  | [] => none
  | n :: ns => (firstFaultExhaustive n).or (firstFaultAmong ns)
end

mutual
/-- Every node is marked faulty exactly when it or a node below it is a fault. -/
def FaultsMarked : Node → Prop
  | ⟨kind, field, firstRow, lastRow, text, missing, faulty, children⟩ =>
    (faulty = (isFault ⟨kind, field, firstRow, lastRow, text, missing, faulty, children⟩
      || children.any (·.faulty))) ∧ AllFaultsMarked children

/-- `FaultsMarked` of every tree of a list. -/
def AllFaultsMarked : List Node → Prop
  | [] => True
  | n :: ns => FaultsMarked n ∧ AllFaultsMarked ns
end

end CodeAtlas.Syntax.Node
