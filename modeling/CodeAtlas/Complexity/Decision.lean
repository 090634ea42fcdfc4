import CodeAtlas.Syntax.Node

/-!
# Decision points

A decision point is a branch, a loop, a case, a handler, a conditional or a logical connective.  The
complexity of a callable is one more than the number of decision points in its body that do not lie
in a scope nested in it: nested callables and classes have a score of their own.
-/

namespace CodeAtlas.Syntax.Node

/-- The rules whose nodes are decision points. -/
def decisionRules : List Rule :=
  [.ifStatement, .forStatement, .forInStatement, .whileStatement, .doStatement, .switchCase,
    .switchDefault, .catchClause, .ternaryExpression]

/-- The rules whose nodes have a score of their own. -/
def scopeRules : List Rule :=
  [.functionDeclaration, .generatorFunctionDeclaration, .functionExpression, .generatorFunction,
    .arrowFunction, .methodDefinition, .classDeclaration, .abstractClassDeclaration,
    .classExpression]

/-- The node was built by one of the rules. -/
def isAmong (n : Node) (rules : List Rule) : Bool :=
  match n.kind with
  | .rule r => rules.contains r
  | .token _ => false

/-- The node joins two expressions by `&&` or `||`. -/
def isLogical (n : Node) : Bool :=
  n.isRule .binaryExpression
    && (n.child? .operator).any fun op => op.isToken "&&" || op.isToken "||"

/-- The node is a decision point. -/
def isDecision (n : Node) : Bool := n.isAmong decisionRules || n.isLogical

/-- The node has a score of its own. -/
def isScope (n : Node) : Bool := n.isAmong scopeRules

mutual
/-- The number of decision points of a tree outside the scopes nested in it. -/
def decisions : Node → Nat
  | ⟨kind, field, firstRow, lastRow, text, missing, faulty, children⟩ =>
    (if isDecision ⟨kind, field, firstRow, lastRow, text, missing, faulty, children⟩ then 1 else 0)
      + decisionsAmong children

/-- The number of decision points of those trees of a list that are no scopes. -/
def decisionsAmong : List Node → Nat
  | [] => 0
  | n :: ns => (if n.isScope then 0 else decisions n) + decisionsAmong ns
end

/-- The complexity of a function, arrow function or method. -/
def complexity (n : Node) : Nat :=
  match n.child? .body with
  | none => 1
  | some body => if body.isScope then 1 else 1 + body.decisions

end CodeAtlas.Syntax.Node
