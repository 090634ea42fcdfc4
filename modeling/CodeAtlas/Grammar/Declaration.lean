import CodeAtlas.Grammar.Expression

/-!
# Declarations

What may stand as a statement of its own and may be exported: variables, functions, classes, and the
declarations of the typed language.
-/

namespace CodeAtlas.Grammar

open CodeAtlas.Syntax
open Character
open Grammar.Parser

variable (go : Descent)

/-- A name follows, not separated by a line end. -/
def nameAhead : Parser Bool := do
  match (← cursor).mark.rest with
  | [] => return false
  | c :: _ => return (beginsName c || c = '\\') && !(← omissible true false)

/-- Behind the word `w` a name follows. -/
def nameBehind (w : String) : Parser Bool := do
  let c ← cursor
  let _ ← keyword w
  let named ← nameAhead
  moveTo c
  return named

/-- Behind the word `w` the name of a module follows, which may be quoted. -/
def moduleNameBehind (w : String) : Parser Bool := do
  let c ← cursor
  let _ ← keyword w
  let named ← nameAhead
  let quoted := (← cursor).mark.rest.head?.any "\"'".toList.contains
  let apart ← omissible true false
  moveTo c
  return named || (quoted && !apart)

/-- The end of a declaration. -/
def declarationEnd : Parser (List Node) := do
  semicolon true <|> (do typedOnly; semicolon false)

/-! ### Variables -/

/-- One variable with its annotation and initial value. -/
def variableDeclarator (p : Place) : Parser (List Node) := node .variableDeclarator do
  let typed := (← language).typed
  let name ← field .name (destructuring go <|> plainName .identifier)
  let annotation ←
    if typed then
      optional (typeAscription go <|> seq [punct "!", typeAscription go])
    else pure []
  if ← symbolAhead "=" then return name ++ annotation ++ (← initializer go p)
  else return name ++ annotation

/-- Variables with commas between them. -/
def declarators (p : Place) : Parser (List Node) :=
  sepBy1 (variableDeclarator go p) (punct ",")

/-- A declaration of variables by the word `w`. -/
def variablesBy (r : Rule) (w : String) : Parser (List Node) :=
  node r (seq [keyword w, declarators go .last, declarationEnd])

/-- A declaration of resources that are given back at the end of the block. -/
def usingDeclaration : Parser (List Node) := node .usingDeclaration
  (seq [optional (keyword "await"), keyword "using", declarators go .last, declarationEnd])

/-- `let` declares something here; alone it is a name. -/
def letDeclares : Parser Bool := do
  let c ← cursor
  let _ ← keyword "let"
  let bracket := (← cursor).mark.rest.head?.any fun c => c = '[' || c = '{'
  let named ← nameAhead
  let operator ← wordAmong ["in", "instanceof"]
  moveTo c
  return (bracket || named) && !operator

/-! ### Declarations of the typed language -/

/-- An interface. -/
def interfaceDeclaration : Parser (List Node) := node .interfaceDeclaration (seq [
  keyword "interface", field .name (anyWord .typeIdentifier), optional (typeParameters go),
  optional (node .extendsTypeClause (seq [keyword "extends", sepBy1 (go .type) (punct ",")])),
  field .body (objectTypeOf go .interfaceBody)])

/-- A name for a type. -/
def typeAlias : Parser (List Node) := node .typeAliasDeclaration (seq [
  keyword "type", field .name (anyWord .typeIdentifier), optional (typeParameters go),
  punct "=", field .value (go .type), semicolon false])

/-- An enumeration. -/
def enumDeclaration : Parser (List Node) := node .enumDeclaration (seq [
  optional (keyword "const"), keyword "enum", field .name (anyWord .identifier),
  field .body (node .enumBody (seq [punct "\x7b",
    listed (do
      let before ← cursor
      let name ← field .name (propertyName go)
      if ← symbolAhead "=" then nodeAfter .enumAssignment before name (initializer go .inner)
      else return name),
    punct "\x7d"]))])

/-- A path of names. -/
def namePath : Parser (List Node) := do
  let before ← cursor
  let first ← anyWord .identifier
  if ← symbolAhead "." then
    nodeAfter .nestedIdentifier before first (many1 (seq [punct ".", anyWord .propertyIdentifier]))
  else return first

/-- A namespace or module; without a body where it only names one. -/
def moduleDeclaration (r : Rule) (w : String) : Parser (List Node) := node r (seq [
  keyword w, field .name (string <|> namePath),
  do if ← symbolAhead "\x7b" then field .body (block go) else pure []])

/-- A name for an imported entity. -/
def importAlias : Parser (List Node) := node .importAlias (seq [
  keyword "import", anyWord .identifier, punct "=", namePath, semicolon true])

/-- The name of a class follows. -/
def classNameAhead : Parser Bool := do
  let c ← cursor
  let _ ← keyword "class"
  let rest := (← cursor).mark.rest
  let word := wordAt rest
  let typed := (← language).typed
  moveTo c
  return word != "" && (if typed then !(["extends", "implements"].contains word)
    else !reservedWords.contains word)

/-- The name of a function follows `function`, perhaps behind `async` and a star. -/
def functionNameAhead : Parser Bool :=
  wouldAccept (seq [do
      let word ← optional (keyword "async")
      if !word.isEmpty then guard (!(← omissible true false))
      return word,
    keyword "function", optional (punct "*"), plainName .identifier])

mutual
/-- A declaration that begins with the word `w`; `depth` bounds the number of words in front. -/
def declarationBy : Nat → String → Parser (List Node)
  | depth, w => do
    let typed := (← language).typed
    match w with
    | "function" | "async" => do
      guard (← functionNameAhead)
      functionDeclaration go
    | "class" => do
      guard (← classNameAhead)
      classDeclaration go
    | "var" => variablesBy go .variableDeclaration "var"
    | "let" => do
      guard (← letDeclares)
      variablesBy go .lexicalDeclaration "let"
    | "const" =>
      if typed && (← wouldAccept (seq [keyword "const", keyword "enum", anyWord .identifier])) then
        enumDeclaration go
      else variablesBy go .lexicalDeclaration "const"
    | "using" | "await" => do
      untypedOnly
      guard (← wouldAccept (seq [optional (keyword "await"), keyword "using",
        do guard (← nameAhead); anyWord .identifier]))
      usingDeclaration go
    | "abstract" => do
      typedOnly
      classDeclaration go
    | "enum" => do
      typedOnly
      enumDeclaration go
    | "interface" => do
      typedOnly
      interfaceDeclaration go
    | "type" => do
      typedOnly
      guard (← nameBehind "type")
      typeAlias go
    | "namespace" => do
      typedOnly
      guard (← moduleNameBehind "namespace")
      moduleDeclaration go .internalModule "namespace"
    | "module" => do
      typedOnly
      guard (← moduleNameBehind "module")
      moduleDeclaration go .module "module"
    | "import" => do
      typedOnly
      importAlias
    | "declare" => do
      typedOnly
      guard (← nameBehind "declare")
      ambientDeclaration depth
    | _ => fail

/-- A declaration of something that exists elsewhere. -/
def ambientDeclaration : Nat → Parser (List Node)
  | 0 => fail
  | depth + 1 => node .ambientDeclaration (do
    let word ← keyword "declare"
    match wordAt (← cursor).mark.rest with
    | "global" => return word ++ (← seq [keyword "global", block go])
    | w => return word ++ (← declarationBy depth w))
end

/-- A declaration. -/
def declaration : Parser (List Node) := do
  let rest := (← cursor).mark.rest
  if rest.head? == some '@' then classDeclaration go
  else declarationBy go rest.length (wordAt rest)

end CodeAtlas.Grammar
