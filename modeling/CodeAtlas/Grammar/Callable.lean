import CodeAtlas.Grammar.TypeExpr

/-!
# Functions and methods

Functions as expressions and as declarations, arrow functions, and the methods of objects and
classes.
-/

namespace CodeAtlas.Grammar

open CodeAtlas.Syntax
open Grammar.Parser

variable (go : Descent)

/-- Statements in braces. -/
def block : Parser (List Node) :=
  node .statementBlock (seq [punct "\x7b", statements go, punct "\x7d"])

/-- What stands before the name of a function: whether it is a generator comes with it. -/
def functionHead : Parser (List Node × Bool) := do
  let words ← seq [optional (keyword "async"), keyword "function"]
  let star ← optional (punct "*")
  return (words ++ star, !star.isEmpty)

/-- A function used as an expression. -/
def functionExpression : Parser (List Node) := do
  let before ← cursor
  let (head, generator) ← functionHead
  nodeAfter (if generator then .generatorFunction else .functionExpression) before head
    (seq [optional (field .name (plainName .identifier)), callSignature go,
      field .body (block go)])

/-- A function declared by a statement; where annotations are allowed it may lack a body. -/
def functionDeclaration : Parser (List Node) := do
  let before ← cursor
  let (head, generator) ← functionHead
  let signature ← seq [field .name (plainName .identifier), callSignature go]
  if ← symbolAhead "\x7b" then
    nodeAfter (if generator then .generatorFunctionDeclaration else .functionDeclaration) before
      (head ++ signature) (field .body (block go))
  else
    typedOnly
    let stop ← if ← symbolAhead ";" then punct ";" else do
      guard (← omissible false true)
      pure []
    nodeAfter .functionSignature before (head ++ signature) (pure stop)

/-! ### Arrow functions -/

/-- A word that may be the only parameter of an arrow function. -/
def soleParameter : Parser (List Node) := field .parameter do
  if (← language).typed then
    nameExcept .identifier ["function", "class", "new", "this", "super", "null", "true", "false",
      "import", "typeof", "void", "delete", "undefined", "yield"]
  else
    nameExcept .identifier ("undefined" :: "yield" :: reservedWords.filter (· != "export"))

/-- An arrow function up to and including its arrow, but without `async`. -/
def arrowHead : Parser (List Node) :=
  seq [callSignature go <|> soleParameter, punct "=>"]

/-- An arrow function. -/
def arrowFunction (p : Place) : Parser (List Node) := node .arrowFunction do
  let head ← seq [keyword "async", arrowHead go] <|> arrowHead go
  if ← symbolAhead "\x7b" then
    match ← optional? (block go) with
    | some body => return head ++ onLast (fun n => { n with field := some .body }) body
    | none =>
      if ← exhausted then fail
      return head ++ (← field .body (go (.expression p)))
  else return head ++ (← field .body (go (.expression p)))

/-! ### Methods -/

/-- The words that modify a method.  `ends` says that a modifier alone on its line would be a
member of its own, as it is in a class. -/
def methodModifiers (ends : Bool) : Parser (List Node) := do
  let kinds := firstOf [modifier ends "get", modifier ends "set", generatorStar]
  if (← language).typed then
    seq [optional (accessibility ends), optional (modifier ends "static"),
      optional (node .overrideModifier (modifier ends "override")),
      optional (modifier ends "readonly"), optional (modifier ends "async"), optional kinds]
  else
    seq [optional (modifier ends "static"), optional (modifier ends "async"), optional kinds]

/-- A method up to its body. -/
def methodSignatureWithName (ends : Bool) : Parser (List Node) := do
  let head ← seq [methodModifiers ends, field .name (propertyName go)]
  if (← language).typed then
    return head ++ (← seq [optional (punct "?"), callSignature go])
  else return head ++ (← callSignature go)

/-- A method with its body. -/
def method (ends : Bool) (head : Parser (List Node)) : Parser (List Node) :=
  node .methodDefinition (seq [head, methodSignatureWithName go ends, field .body (block go)])

/-! ### Objects -/

/-- One entry of an object. -/
def objectEntry : Parser (List Node) := do
  if ← symbolAhead "..." then return ← spread go
  let before ← cursor
  -- a method is recognised by its signature, so that its body is read once
  if ← wouldAccept (seq [many (decorator go), methodSignatureWithName go false, punct "\x7b"]) then
    method go false (many (decorator go))
  else
    let key ← propertyName go
    if ← symbolAhead ":" then
      nodeAfter .pair before key (seq [punct ":", field .value (go (.expression .inner))])
    else
      moveTo before
      plainName .shorthandPropertyIdentifier

/-- An object. -/
def object : Parser (List Node) :=
  node .object (seq [punct "\x7b", sparse (objectEntry go), punct "\x7d"])

end CodeAtlas.Grammar
