import CodeAtlas.Grammar.Declaration

/-!
# Imports and exports
-/

namespace CodeAtlas.Grammar

open CodeAtlas.Syntax
open Character
open Grammar.Parser

variable (go : Descent)

/-- The module that names come from. -/
def fromClause : Parser (List Node) := seq [keyword "from", field .source string]

/-- A name by which a module gives something away. -/
def exportedName : Parser (List Node) :=
  firstOf [string, filedAs .identifier (keyword "default"), plainName .identifier]

/-- The word that says what kind of thing a name stands for. -/
def nameKind : Parser (List Node) := do
  typedOnly
  keywordAmong ["type", "typeof"]

/-! ### Imports -/

/-- The kind of a name that an import binds; `type` is the name itself if nothing or a new name
follows it. -/
def importedKind : Parser (List Node) := do
  notAhead (seq [keyword "type", firstOf [punct ",", punct "\x7d", keyword "as"]])
  nameKind

/-- A name that an import binds.  What can only be a name in another module needs a new one. -/
def importEntry : Parser (List Node) := node .importSpecifier (seq [
  optional importedKind,
  seq [field .name exportedName, keyword "as", field .newName (plainName .identifier)]
    <|> (do
      notAhead (keyword "default")
      field .name (plainName .identifier))])

/-- The names that an import binds. -/
def namedImports : Parser (List Node) := node .namedImports
  (seq [punct "\x7b", listed importEntry, punct "\x7d"])

/-- An import of a whole module under one name. -/
def namespaceImport : Parser (List Node) :=
  node .namespaceImport (seq [punct "*", keyword "as", plainName .identifier])

/-- What an import binds. -/
def importClause : Parser (List Node) := node .importClause (firstOf [
  namespaceImport, namedImports,
  seq [plainName .identifier, optional (seq [punct ",", namespaceImport <|> namedImports])]])

/-- An import. -/
def importStatement : Parser (List Node) := node .importStatement (seq [
  keyword "import",
  firstOf [
    seq [nameKind, importClause, fromClause],
    seq [importClause, fromClause],
    do typedOnly
       seq [optional nameKind, node .importRequireClause (seq [anyWord .identifier, punct "=",
         keyword "require", punct "(", field .source string, punct ")"])],
    seq [optional nameKind, field .source string]],
  optional (node .importAttribute (seq [keyword "with", object go])),
  semicolon false])

/-! ### Exports -/

/-- A name that an export gives away. -/
def exportEntry : Parser (List Node) := node .exportSpecifier (seq [
  optional nameKind, field .name exportedName,
  optional (seq [keyword "as", field .newName exportedName])])

/-- The names that an export gives away. -/
def exportClause : Parser (List Node) := node .exportClause
  (seq [punct "\x7b", listed exportEntry, punct "\x7d"])

/-- The value that a module gives away by default. -/
def defaultExport : Parser (List Node) := do
  let word ← keyword "default"
  let declared ← optional? (field .declaration (declaration go))
  match declared with
  | some found => return word ++ found
  | none =>
    if ← exhausted then fail
    return word ++ (← seq [field .value (go (.expression .last)), declarationEnd])

/-- An export. -/
def exportStatement : Parser (List Node) := node .exportStatement (do
  let decorators ← many (decorator go)
  let word ← keyword "export"
  let head := decorators ++ word
  if ← wordAhead "default" then return head ++ (← defaultExport go)
  if ← symbolAhead "*" then
    return head ++ (← seq [
      node .namespaceExport (seq [punct "*", keyword "as", exportedName]) <|> punct "*",
      fromClause, semicolon false])
  if ← symbolAhead "\x7b" then
    return head ++ (← seq [exportClause, optional fromClause, semicolon false])
  if (← language).typed then
    if ← symbolAhead "=" then
      return head ++ (← seq [punct "=", go (.expression .last), semicolon true])
    if ← wouldAccept (seq [keyword "as", keyword "namespace"]) then
      return head
        ++ (← seq [keyword "as", keyword "namespace", anyWord .identifier, semicolon false])
    if ← wouldAccept (seq [keyword "type", punct "\x7b"]) then
      return head ++ (← seq [keyword "type", exportClause, optional fromClause, semicolon false])
  return head ++ (← field .declaration (declaration go)))

end CodeAtlas.Grammar
