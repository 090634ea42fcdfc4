import CodeAtlas.Grammar.Callable

/-!
# Classes

Classes as expressions and as declarations, what they extend and implement, and their members.
-/

namespace CodeAtlas.Grammar

open CodeAtlas.Syntax
open Character
open Grammar.Parser

variable (go : Descent)

/-! ### What a class extends and implements -/

/-- What a class with annotations extends.  Type arguments belong to it if nothing but the rest of
the class follows them. -/
def extendedValue : Parser (List Node) :=
  (do
    let found ← seq [field .value (go (.chain .inner true)), optional (typeArguments go)]
    guard ((← symbolAhead ",") || (← symbolAhead "\x7b") || (← wordAhead "implements"))
    return found)
    <|> field .value (go (.expression .inner))

/-- The heritage of a class. -/
def classHeritage : Parser (List Node) := do
  if (← language).typed then
    let extended := node .extendsClause
      (seq [keyword "extends", sepBy1 (extendedValue go) (punct ",")])
    let implemented := node .implementsClause
      (seq [keyword "implements", sepBy1 (go .type) (punct ",")])
    node .classHeritage (seq [extended, optional implemented] <|> implemented)
  else node .classHeritage (seq [keyword "extends", go (.expression .inner)])

/-! ### Members -/

/-- `static` and `get` before a line end are read as one token. -/
def staticGet : Parser (List Node) := do
  let c ← cursor
  guard (wordBegins "static".toList c.mark.rest)
  let gap := ((c.mark.rest.drop 6).takeWhile isPlainBlank).length
  let rest := c.mark.rest.drop (6 + gap)
  guard (gap > 0 && "get".toList.isPrefixOf rest)
  let blanks := (rest.drop 3).takeWhile isPlainBlank
  guard (blanks.contains '\n')
  let tail := (blanks.reverse.dropWhile (· ≠ '\n')).length
  take (.token "static get") (9 + gap + tail)

/-- A block that runs when the class is made. -/
def staticBlock : Parser (List Node) :=
  node .classStaticBlock (seq [keyword "static", field .body (block go)])

/-- A field of a class without annotations. -/
def plainField : Parser (List Node) := do
  let before ← cursor
  let head ← seq [many (decorator go), staticGet <|> optional (modifier true "static"),
    field .property (propertyName go)]
  if ← symbolAhead "=" then
    return (← nodeAfter .fieldDefinition before head (initializer go .last)) ++ (← semicolon true)
  else
    return (← nodeAfter .fieldDefinition before head (pure [])) ++ (← semicolon false)

/-- One member of a class without annotations. -/
def plainMember : Parser (List Node) := do
  if ← symbolAhead ";" then return ← punct ";"
  let decorators := many (decorator go)
  let signature := methodSignatureWithName go true
  let split := seq [staticGet, optional (modifier true "async"),
    field .name (propertyName go), callSignature go]
  if ← wouldAccept (seq [keyword "static", punct "\x7b"]) then staticBlock go
  else if ← wouldAccept (seq [decorators, split, punct "\x7b"]) then
    node .methodDefinition (seq [decorators, split, field .body (block go)])
  else if ← wouldAccept (seq [decorators, signature, punct "\x7b"]) then
    seq [method go true decorators, optional (punct ";")]
  else plainField go

/-- The words that no member of a class with annotations is named by at its beginning. -/
def memberWords : List String := ["abstract", "accessor"]

/-- The modifiers of a field with annotations. -/
def fieldModifiers : Parser (List Node) := seq [
  optional (modifier true "declare"), optional (accessibility true),
  optional (modifier true "declare"),
  firstOf [
    seq [modifier true "static", optional (node .overrideModifier (modifier true "override")),
      optional (modifier true "readonly")],
    seq [modifier true "abstract",
      optional (node .overrideModifier (modifier true "override")),
      optional (modifier true "readonly")],
    seq [node .overrideModifier (modifier true "override"), optional (modifier true "readonly")],
    seq [modifier true "readonly", optional (modifier true "abstract")],
    modifier true "accessor",
    pure []]]

/-- A field of a class with annotations. -/
def typedField : Parser (List Node) := do
  let before ← cursor
  let head ← seq [many (decorator go), fieldModifiers, field .name (propertyName go),
    optional (punct "?" <|> punct "!"), optional (typeAscription go)]
  nodeAfter .publicFieldDefinition before head (do
    if ← symbolAhead "=" then initializer go .last else pure [])

/-- The end of a member that is no method with a body. -/
def typedMemberEnd : Parser (List Node) := do
  if ← symbolAhead "," then punct "," else semicolon true <|> semicolon false

/-- One member of a class with annotations. -/
def typedMember : Parser (List Node) := do
  if ← symbolAhead ";" then return ← punct ";"
  let decorators := many (decorator go)
  let signature := methodSignatureWithName go true
  let named : Parser (List Node) := do
    notAhead (seq [keywordAmong memberWords,
      firstOf [punct ";", punct "=", punct "(", punct ":", punct "\x7d"]])
    return []
  if ← wouldAccept (seq [keyword "static", punct "\x7b"]) then staticBlock go
  else if ← wouldAccept (seq [decorators, named, signature, punct "\x7b"]) then
    seq [decorators, method go true (pure []), optional (punct ";")]
  else
    let _ ← named
    firstOf [
      seq [indexSignature go, typedMemberEnd],
      seq [node .abstractMethodSignature (seq [
          optional (accessibility true), modifier true "abstract",
          optional (node .overrideModifier (modifier true "override")),
          optional (firstOf [modifier true "get", modifier true "set", generatorStar]),
          field .name (propertyName go), optional (punct "?"), callSignature go]),
        typedMemberEnd],
      seq [decorators, methodSignature go true, typedMemberEnd],
      seq [typedField go, typedMemberEnd]]

/-- The members of a class in braces. -/
def classBody : Parser (List Node) := do
  let member := if (← language).typed then typedMember go else plainMember go
  node .classBody (seq [punct "\x7b", many member, punct "\x7d"])

/-! ### Classes -/

/-- What follows the name of a class. -/
def classRest : Parser (List Node) := do
  let parameters ← if (← language).typed then optional (typeParameters go) else pure []
  return parameters ++ (← optional (classHeritage go)) ++ (← field .body (classBody go))

/-- The name of a class. -/
def className : Parser (List Node) := field .name do
  if (← language).typed then
    nameExcept .typeIdentifier ["extends", "implements"]
  else plainName .identifier

/-- A class used as an expression. -/
def classExpression : Parser (List Node) := node .classExpression
  (seq [many (decorator go), keyword "class", optional className, classRest go])

/-- A class declared by a statement. -/
def classDeclaration : Parser (List Node) := do
  let before ← cursor
  let decorators ← many (decorator go)
  let abstract_ ← if (← language).typed then optional (keyword "abstract") else pure []
  nodeAfter (if abstract_.isEmpty then .classDeclaration else .abstractClassDeclaration) before
    (decorators ++ abstract_) (seq [keyword "class", className, classRest go])

end CodeAtlas.Grammar
