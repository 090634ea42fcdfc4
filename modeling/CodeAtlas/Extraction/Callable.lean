import CodeAtlas.Complexity.Decision
import CodeAtlas.Syntax.Walk
import CodeAtlas.Record

/-!
# Functions in a syntax tree

A declared function is recorded under its name, an expression under its own name or that of the
variable it is the value of, and an unnamed function that is exported by default as anonymous.
-/

namespace CodeAtlas.Extraction

open CodeAtlas.Syntax

/-- The name that a parameter is recorded under: its own if it is a plain name, perhaps with a
default or gathering the rest, and a placeholder otherwise. -/
def parameterName (parameter : Node) : String :=
  let inner :=
    if parameter.isAmong [.requiredParameter, .optionalParameter] then
      (parameter.child? .pattern).getD parameter
    else parameter
  let plain (n : Node) : Option String := if n.isRule .identifier then some n.text else none
  let found :=
    match plain inner with
    | some name => some name
    | none =>
      if inner.isRule .assignmentPattern then (inner.child? .left).bind plain
      else if inner.isRule .restPattern then inner.namedChildren.head?.bind plain
      else none
  found.getD "param"

/-- The names of the parameters of a callable. -/
def parameterNames (callable : Node) : List String :=
  match callable.child? .parameter with
  | some single => [single.text]
  | none =>
    match callable.child? .parameters with
    | some list => (list.namedChildren.filter (!·.isRule .comment)).map parameterName
    | none => []

/-- The record of a callable under a name. -/
def functionRecord (callable : Node) (name : String) : FunctionRecord :=
  ⟨name, callable.line, callable.endLine, parameterNames callable, callable.complexity, [], [],
    false⟩

/-- The node is the value of the export default statement that is its parent. -/
def isDefaultExport (s : Site) : Bool :=
  s.parent.any fun p => p.isRule .exportStatement && p.hasToken "default"

/-- The name of the variable whose value the node is. -/
def boundName? (s : Site) : Option String := do
  let parent ← s.parent
  guard (parent.isRule .variableDeclarator && s.node.field == some .value)
  let name ← parent.child? .name
  guard (name.isRule .identifier && name.text != "")
  return name.text

/-- The rules of functions that are declared. -/
def declaredRules : List Rule := [.functionDeclaration, .generatorFunctionDeclaration]

/-- The rules of functions that are expressions. -/
def expressionRules : List Rule := [.functionExpression, .generatorFunction]

/-- The name under which a callable is recorded, if it is. -/
def callableName? (s : Site) : Option String :=
  let own := (s.node.child? .name).map (·.text)
  if s.node.isAmong declaredRules then some (own.getD anonymousName)
  else if s.node.isAmong expressionRules then
    own.or ((boundName? s).or (if isDefaultExport s then some anonymousName else none))
  else if s.node.isRule .arrowFunction then boundName? s
  else none

/-- The functions that are recorded at a site. -/
def functionsAt (s : Site) : List FunctionRecord :=
  ((callableName? s).map (functionRecord s.node)).toList

end CodeAtlas.Extraction
