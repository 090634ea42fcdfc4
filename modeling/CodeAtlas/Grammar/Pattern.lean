import CodeAtlas.Grammar.Fragment

/-!
# Patterns

What a binding or an assignment may have on its left: a name, a place in an object or array, or a
destructuring pattern.
-/

namespace CodeAtlas.Grammar

open CodeAtlas.Syntax
open Grammar.Parser

variable (go : Descent)

/-- An initial value. -/
def initializer (p : Place) : Parser (List Node) :=
  seq [punct "=", field .value (go (.expression p))]

/-- A pattern, or a pattern with a default. -/
def defaulted : Parser (List Node) := do
  let before ← cursor
  let left ← go .pattern
  if ← symbolAhead "=" then
    nodeAfter .assignmentPattern before (onLast (fun n => { n with field := some .left }) left)
      (seq [punct "=", go (.expression .inner)])
  else return left

/-- A pattern for the elements of an array. -/
def arrayPattern : Parser (List Node) :=
  node .arrayPattern (seq [punct "[", sparse (defaulted go), punct "]"])

/-- A rest pattern. -/
def restPattern : Parser (List Node) := node .restPattern (seq [punct "...", go .pattern])

/-- One entry of an object pattern. -/
def objectPatternEntry : Parser (List Node) := do
  if ← symbolAhead "..." then return ← restPattern go
  let before ← cursor
  if before.mark.rest.head? == some '{' then fail
  let key ← propertyName go
  if ← symbolAhead ":" then
    nodeAfter .pairPattern before key (seq [punct ":", defaulted go])
  else
    guard (lastKind? key == some (.rule .propertyIdentifier))
    moveTo before
    let short ← plainName .shorthandPropertyIdentifierPattern
    if ← symbolAhead "=" then
      nodeAfter .objectAssignmentPattern before short
        (seq [punct "=", go (.expression .inner)])
    else return short

/-- A pattern for the properties of an object. -/
def objectPattern : Parser (List Node) :=
  node .objectPattern (seq [punct "\x7b", sparse (objectPatternEntry go), punct "\x7d"])

/-- A pattern that takes a value apart. -/
def destructuring : Parser (List Node) := do
  match (← cursor).mark.rest with
  | '[' :: _ => arrayPattern go
  | '{' :: _ => objectPattern go
  | _ => fail

/-- The words that no pattern begins with. -/
def patternWords (typed : Bool) : List String :=
  let always := ["function", "class", "new", "this", "super", "null", "true", "false", "import",
    "typeof", "void", "delete", "yield", "in", "of", "instanceof"]
  if typed then always else "yield" :: reservedWords.filter (· != "export")

/-- The kinds of expressions that are patterns. -/
def isPlace : Option Kind → Bool
  | some (.rule r) =>
    [Rule.identifier, .undefined, .memberExpression, .subscriptExpression,
      .nonNullExpression].contains r
  | _ => false

/-- What a name or another place in memory may be followed by to go on as an expression. -/
def placeGoesOn : Parser Bool := do
  match symbolAt (← cursor).mark.rest with
  | some s => return [['.'], ['['], ['('], ['?', '.'], ['`'], ['!']].contains s
  | none => return false

/-- A place in memory, given as an expression. -/
def place : Parser (List Node) := do
  let found ← go (.chain .inner true)
  guard (isPlace (lastKind? found))
  return found

/-- What may be bound or assigned to. -/
def pattern : Parser (List Node) := do
  let before ← cursor
  match before.mark.rest with
  | '.' :: _ => restPattern go
  | '[' :: _ | '{' :: _ =>
    match ← optional? (destructuring go) with
    | some found =>
      if ← placeGoesOn then
        moveTo before
        place go
      else return found
    | none => if ← exhausted then fail else place go
  | _ =>
    let typed := (← language).typed
    if ← wordAhead "undefined" then return ← anyWord .undefined
    match ← optional? (nameExcept .identifier (patternWords typed)) with
    | some found =>
      if ← placeGoesOn then
        moveTo before
        place go
      else return found
    | none => if ← wordAmong ["this", "super"] then place go else fail

end CodeAtlas.Grammar
