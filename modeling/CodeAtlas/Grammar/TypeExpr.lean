import CodeAtlas.Grammar.Pattern

/-!
# Types

Type annotations, type parameters and arguments, and the types that they hold.  The parameters of a
callable stand here too, because the types of functions contain them.
-/

namespace CodeAtlas.Grammar

open CodeAtlas.Syntax
open Character
open Grammar.Parser

variable (go : Descent)

/-- A type behind a colon. -/
def typeAscription : Parser (List Node) := node .typeAscription (seq [punct ":", go .type])

/-- One type parameter. -/
def typeParameter : Parser (List Node) := node .typeParameter (seq [
  optional (do
    let word ← keyword "const"
    guard (← memberNameAhead)
    return word),
  anyWord .typeIdentifier,
  optional (node .constraint (seq [keyword "extends", go .type])),
  optional (node .defaultType (seq [punct "=", go .type]))])

/-- Type parameters in angle brackets. -/
def typeParameters : Parser (List Node) :=
  node .typeParameters (seq [leading "<", listed1 (typeParameter go), leading ">"])

/-! ### Parameters -/

/-- The pattern of a parameter follows. -/
def parameterAhead : Parser Bool := do
  match (← cursor).mark.rest with
  | [] => return false
  | c :: _ => return beginsName c || "\\[\x7b.".toList.contains c

/-- A word that modifies a parameter. -/
def parameterModifier (w : String) : Parser (List Node) := do
  let word ← keyword w
  guard (← parameterAhead)
  return word

/-- A parameter with its annotation. -/
def typedParameter : Parser (List Node) := do
  let before ← cursor
  let head ← seq [many (decorator go),
    optional (node .accessibilityModifier
      (firstOf (["public", "private", "protected"].map parameterModifier))),
    optional (node .overrideModifier (parameterModifier "override")),
    optional (parameterModifier "readonly"),
    field .pattern (node .this (keyword "this") <|> go .pattern)]
  let optionalMark ← optional (punct "?")
  nodeAfter (if optionalMark.isEmpty then .requiredParameter else .optionalParameter) before
    (head ++ optionalMark) (seq [optional (typeAscription go), optional (initializer go .inner)])

/-- Parameters in parentheses. -/
def formalParameters : Parser (List Node) := do
  let parameter := if (← language).typed then typedParameter go else defaulted go
  node .formalParameters (seq [punct "(", listed parameter, punct ")"])

/-- A claim about the type of a parameter. -/
def typePredicate : Parser (List Node) :=
  node .typePredicate (seq [anyWord .identifier, keyword "is", go .type])

/-- What a function asserts of a parameter. -/
def assertion : Parser (List Node) :=
  node .asserts (seq [keyword "asserts", typePredicate go <|> anyWord .identifier])

/-- The type of what a function answers, behind a colon. -/
def returnType : Parser (List Node) :=
  firstOf [
    node .assertsAscription (seq [punct ":", assertion go]),
    node .predicateAscription (seq [punct ":", typePredicate go]),
    typeAscription go]

/-- The parameters of a callable with what the language writes around them. -/
def callSignature : Parser (List Node) := do
  if (← language).typed then
    seq [optional (typeParameters go), field .parameters (formalParameters go),
      optional (returnType go)]
  else field .parameters (formalParameters go)

/-! ### Members of an object type -/

/-- The signature of an index, or of the keys of a mapped type. -/
def indexSignature : Parser (List Node) := node .indexSignature (seq [
  optional (seq [optional (punct "-" <|> punct "+"), modifier false "readonly"]),
  punct "[",
  node .mappedTypeClause (seq [anyWord .typeIdentifier, keyword "in", go .type,
      optional (seq [keyword "as", go .type])])
    <|> seq [anyWord .identifier, punct ":", go .type],
  punct "]",
  firstOf [typeAscription go,
    node .typeAscription (seq [firstOf (["?:", "-?:", "+?:"].map leading), go .type]),
    pure []]])

/-- The modifiers of a member that has a type and no body. -/
def signatureModifiers (ends : Bool) : Parser (List Node) := seq [
  optional (accessibility ends), optional (modifier ends "static"),
  optional (node .overrideModifier (modifier ends "override")),
  optional (modifier ends "readonly")]

/-- The signature of a method. -/
def methodSignature (ends : Bool) : Parser (List Node) := node .methodSignature (seq [
  signatureModifiers ends, optional (modifier ends "async"),
  optional (firstOf [modifier ends "get", modifier ends "set", generatorStar]),
  field .name (propertyName go), optional (punct "?"), callSignature go])

/-- The signature of a property. -/
def propertySignature : Parser (List Node) := node .propertySignature (seq [
  signatureModifiers true, field .name (propertyName go), optional (punct "?"),
  optional (typeAscription go)])

/-- One member of an object type. -/
def typeMember : Parser (List Node) := firstOf [
  indexSignature go,
  node .constructSignature (seq [
    optional (modifier false "abstract"), keyword "new", optional (typeParameters go),
    field .parameters (formalParameters go), optional (typeAscription go)]),
  methodSignature go true,
  node .callSignature (callSignature go),
  propertySignature go]

/-- The end of a member of an object type. -/
def memberEnd : Parser (List Node) := punct "," <|> semicolon false

/-- The braces of an object type with its members. -/
def objectTypeOf (r : Rule) : Parser (List Node) := node r (seq [
  punct "\x7b", optional (punct "," <|> punct ";"),
  many (seq [typeMember go, memberEnd]),
  punct "\x7d"])

/-! ### Types -/

/-- The words for the types that are built in. -/
def predefinedTypes : List String :=
  ["any", "number", "boolean", "string", "symbol", "void", "unknown", "never", "object"]

/-- The name of a type, perhaps in a namespace and with arguments. -/
def namedType : Parser (List Node) := do
  let before ← cursor
  let word := wordAt before.mark.rest
  let first ← anyWord (if predefinedTypes.contains word then .predefinedType else .typeIdentifier)
  let name ←
    if ← symbolAhead "." then
      nodeAfter .nestedTypeIdentifier before first
        (many1 (seq [punct ".", anyWord .typeIdentifier]))
    else pure first
  if (← cursor).mark.rest.head? == some '<' then
    (nodeAfter .genericType before (onLast (fun n => { n with field := some .name }) name)
      (typeArguments go)) <|> pure name
  else return name

/-- The type of a value that is named. -/
def typeQuery : Parser (List Node) := node .typeQuery (do
  let word ← keyword "typeof"
  let base ← (seq [node .dynamicImport (keyword "import"), punct "(", listed string, punct ")"])
    <|> anyWord .identifier
  let tail ← many (seq [punct ".", anyWord .propertyIdentifier <|> privateName])
  return word ++ base ++ tail ++ (← optional (typeArguments go)))

/-- A literal used as a type. -/
def literalType : Parser (List Node) := node .literalType (firstOf [
  string, number, node .unaryExpression (seq [punct "-" <|> punct "+", number]),
  node .trueLiteral (keyword "true"), node .falseLiteral (keyword "false"),
  node .null (keyword "null"), node .undefined (keyword "undefined")])

/-- A template used as a type. -/
def templateType : Parser (List Node) := node .templateLiteralType do
  let open_ ← punct "`"
  let pieces ← many (templateText <|>
    node .templateType (seq [adjacent "$\x7b", go .type, punct "\x7d"]))
  return open_ ++ pieces ++ (← adjacent "`")

/-- One member of a tuple type. -/
def tupleMember : Parser (List Node) := firstOf [
  node .requiredParameter (seq [optional (punct "..."), anyWord .identifier, typeAscription go]),
  node .optionalParameter (seq [anyWord .identifier, punct "?", typeAscription go]),
  node .restType (seq [punct "...", go .type]),
  do let before ← cursor
     let type ← go .type
     if ← symbolAhead "?" then nodeAfter .optionalType before type (punct "?") else return type]

/-- The type of a function. -/
def functionType : Parser (List Node) := node .functionType (seq [
  optional (typeParameters go), field .parameters (formalParameters go), punct "=>",
  firstOf [assertion go, typePredicate go, go .type]])

/-- The type of a constructor. -/
def constructorType : Parser (List Node) := node .constructorType (seq [
  optional (keyword "abstract"), keyword "new", optional (typeParameters go),
  field .parameters (formalParameters go), punct "=>", go .type])

/-- A type that begins with a word. -/
def wordType : Parser (List Node) := do
  let before ← cursor
  let word := wordAt before.mark.rest
  let plain := namedType go
  match word with
  | "keyof" => node .indexTypeQuery (seq [keyword "keyof", go .type]) <|> plain
  | "readonly" => node .readonlyType (seq [keyword "readonly", go .type]) <|> plain
  | "infer" =>
    node .inferType (seq [keyword "infer", anyWord .typeIdentifier,
      optional (seq [keyword "extends", go .type])]) <|> plain
  | "typeof" => typeQuery go
  | "new" | "abstract" => constructorType go <|> plain
  | "unique" => node .predefinedType (seq [keyword "unique", keyword "symbol"]) <|> plain
  | "this" => node .thisType (keyword "this")
  | "true" | "false" | "null" | "undefined" => literalType
  | "import" =>
    node .importType (seq [node .dynamicImport (keyword "import"), punct "(", listed string,
      punct ")", many (seq [punct ".", anyWord .propertyIdentifier])])
  | _ => plain

/-- A type without infix operators. -/
def simpleType : Parser (List Node) := do
  match (← cursor).mark.rest with
  | [] => fail
  | c :: _ =>
    if c = '(' then
      functionType go <|> node .parenthesizedType (seq [punct "(", go .type, punct ")"])
    else if c = '<' then functionType go
    else if c = '[' then node .tupleType (seq [punct "[", listed (tupleMember go), punct "]"])
    else if c = '{' then objectTypeOf go .objectType
    else if c = '`' then templateType go
    else if c = '*' then node .existentialType (punct "*")
    else if c = '?' then node .flowMaybeType (seq [punct "?", go .type])
    else if beginsName c || c = '\\' then wordType go
    else literalType

/-- Continues a type with brackets. -/
def bracketTail (before : Cursor) : Nat → List Node → Parser (List Node)
  | 0, type => pure type
  | fuel + 1, type => do
    if (← symbolAhead "[") && !(← omissible false false) then
      let found ← optional?
        (nodeAfter .arrayType before type (seq [punct "[", punct "]"])
          <|> nodeAfter .lookupType before type (seq [punct "[", go .type, punct "]"]))
      match found with
      | some type => bracketTail before fuel type
      | none => return type
    else return type

/-- A type with its brackets. -/
def bracketedType : Parser (List Node) := do
  let before ← cursor
  bracketTail go before ((← cursor).raw.rest.length + 1) (← simpleType go)

/-- Types joined by one symbol. -/
def joinedType (r : Rule) (symbol : String) (part : Parser (List Node)) : Parser (List Node) := do
  let before ← cursor
  let lead ← optional (punct symbol)
  let first ← part
  if !lead.isEmpty || (← symbolAhead symbol) then
    nodeAfter r before (lead ++ first) (many (seq [punct symbol, part]))
  else return first

/-- A union of intersections. -/
def unionType : Parser (List Node) :=
  joinedType .unionType "|" (joinedType .intersectionType "&" (bracketedType go))

/-- A type. -/
def type : Parser (List Node) := do
  let before ← cursor
  let left ← unionType go
  if ← wordAhead "extends" then
    nodeAfter .conditionalType before left (seq [keyword "extends", go .type, punct "?",
        go .type, punct ":", go .type])
      <|> pure left
  else return left

end CodeAtlas.Grammar
