import CodeAtlas.Grammar.ModuleItem

/-!
# Statements
-/

namespace CodeAtlas.Grammar

open CodeAtlas.Syntax
open Character
open Grammar.Parser

variable (go : Descent)

/-- An expression as a statement. -/
def expressionStatement : Parser (List Node) :=
  node .expressionStatement (seq [expressions go .last, semicolon true])

/-- An expression in parentheses that decides something. -/
def condition : Parser (List Node) :=
  node .parenthesizedExpression (seq [punct "(", expressions go .inner, punct ")"])

/-- A statement with a label. -/
def labeledStatement : Parser (List Node) := node .labeledStatement
  (seq [plainName .statementIdentifier, punct ":", go .statement])

/-! ### Branches -/

/-- `if` with an alternative. -/
def ifStatement : Parser (List Node) := node .ifStatement (seq [
  keyword "if", condition go, go .statement,
  optional (do
    guard (← wordAhead "else")
    node .elseClause (seq [keyword "else", go .statement]))])

/-- One case of a switch. -/
def switchCase : Parser (List Node) := do
  if ← wordAhead "case" then
    node .switchCase (seq [keyword "case", expressions go .beforeColon, punct ":",
      many (switchLine)])
  else node .switchDefault (seq [keyword "default", punct ":", many switchLine])
where
  /-- A statement of a case; the next case ends it. -/
  switchLine : Parser (List Node) := do
    guard (!(← wordAmong ["case", "default"]))
    go .statement

/-- A switch. -/
def switchStatement : Parser (List Node) := node .switchStatement (seq [
  keyword "switch", condition go,
  field .body (node .switchBody (seq [punct "\x7b", many (switchCase go), punct "\x7d"]))])

/-! ### Loops -/

/-- The head of a loop over the keys or items of something. -/
def iterationHead : Parser (List Node) := do
  let open_ ← punct "("
  let bound := destructuring go <|> plainName .identifier
  let left ← firstOf [
    do let word ← keyword "var"
       let name ← field .left bound
       let start ← if ← symbolAhead "=" then initializer go ⟨false, false, false⟩ else pure []
       guard (← wordAmong ["in", "of"])
       return word ++ name ++ start,
    do let word ← keywordAmong ["let", "const"]
       let name ← field .left bound
       guard (← wordAmong ["in", "of"])
       return word ++ name,
    do untypedOnly
       let word ← seq [optional (keyword "await"), keyword "using"]
       let name ← field .left bound
       guard (← wordAhead "of")
       return word ++ name,
    do let found ← field .left (node .parenthesizedExpression
         (seq [punct "(", expressions go .inner, punct ")"]) <|> go .pattern)
       guard (← wordAmong ["in", "of"])
       return found]
  return open_ ++ left ++ (← seq [field .operator (keywordAmong ["in", "of"]),
    expressions go .inner, punct ")"])

/-- The head of a loop with a counter. -/
def countingHead : Parser (List Node) := do
  let open_ ← punct "("
  let start ← firstOf [
    node .emptyStatement (punct ";"),
    do let declares ← (do if ← wordAhead "let" then letDeclares else return true)
       guard declares
       firstOf [
         node .variableDeclaration (seq [keyword "var", declarators go .inner, punct ";"]),
         node .lexicalDeclaration
           (seq [keywordAmong ["let", "const"], declarators go .inner, punct ";"])],
    do notAhead (seq [keyword "async", keyword "of"])
       seq [expressions go .inner, punct ";"]]
  let test ← node .emptyStatement (punct ";") <|> seq [expressions go .inner, punct ";"]
  let step ← do if ← symbolAhead ")" then pure [] else expressions go .inner
  return open_ ++ start ++ test ++ step ++ (← punct ")")

/-- A loop that begins with `for`. -/
def forStatement : Parser (List Node) := do
  let before ← cursor
  let word ← seq [keyword "for", optional (keyword "await")]
  match ← optional? (iterationHead go) with
  | some head => nodeAfter .forInStatement before (word ++ head) (field .body (go .statement))
  | none =>
    if ← exhausted then fail
    let head ← countingHead go
    nodeAfter .forStatement before (word ++ head) (field .body (go .statement))

/-- `while`. -/
def whileStatement : Parser (List Node) :=
  node .whileStatement (seq [keyword "while", condition go, field .body (go .statement)])

/-- `do` with its condition behind it. -/
def doStatement : Parser (List Node) := node .doStatement (seq [
  keyword "do", field .body (go .statement), keyword "while", condition go, optional (punct ";")])

/-! ### Other statements -/

/-- `try` with what follows it. -/
def tryStatement : Parser (List Node) := node .tryStatement (seq [
  keyword "try", field .body (block go),
  optional (do
    guard (← wordAhead "catch")
    node .catchClause (do
      let word ← keyword "catch"
      let parameter ←
        if ← symbolAhead "(" then
          let annotation := do
            if (← language).typed then optional (typeAscription go) else pure []
          seq [punct "(", field .parameter (destructuring go <|> plainName .identifier),
            annotation, punct ")"]
        else pure []
      return word ++ parameter ++ (← field .body (block go)))),
  optional (do
    guard (← wordAhead "finally")
    node .finallyClause (seq [keyword "finally", field .body (block go)]))])

/-- A jump to a label. -/
def jumpStatement (r : Rule) (w : String) : Parser (List Node) := node r (do
  let word ← keyword w
  if ← symbolAhead ";" then return word ++ (← punct ";")
  if ← omissible false false then return word
  return word ++ (← seq [plainName .statementIdentifier, semicolon false]))

/-- `return` with or without a value. -/
def returnStatement : Parser (List Node) := node .returnStatement (do
  let word ← keyword "return"
  if ← symbolAhead ";" then return word ++ (← punct ";")
  if ← omissible false false then return word
  return word ++ (← seq [expressions go .last, semicolon true]))

/-- The words that begin a statement and are no names there. -/
def statementWords : List String :=
  ["if", "for", "while", "do", "switch", "try", "with", "break", "continue", "return", "throw",
    "debugger", "var", "const", "enum", "interface", "abstract"]

/-- A statement that begins with a word: a declaration, a label or an expression. -/
def wordStatement (word : String) : Parser (List Node) := do
  let typed := (← language).typed
  let other := do
    if ← wouldAccept (seq [plainName .statementIdentifier, punct ":"]) then labeledStatement go
    else if typed && statementWords.contains word then fail
    else expressionStatement go
  match word with
  | "import" =>
    if ← wouldAccept (seq [keyword "import", punct "(" <|> punct "."]) then expressionStatement go
    else importStatement go <|> (do if ← exhausted then fail else declaration go)
  | "export" =>
    if ← wouldAccept (seq [keyword "export",
        firstOf [punct ";", punct ".", punct ",", punct "("]]) then
      expressionStatement go
    else exportStatement go
  | "var" => declaration go
  | "const" | "enum" | "interface" | "abstract" =>
    if typed || word == "const" then declaration go else other
  | "function" | "async" =>
    if ← functionNameAhead then functionDeclaration go else other
  | "class" => if ← classNameAhead then classDeclaration go else other
  | "let" => if ← letDeclares then declaration go else other
  | "using" | "await" | "type" | "namespace" | "module" | "declare" =>
    match ← optional? (declaration go) with
    | some found => return found
    | none => if ← exhausted then fail else other
  | _ => other

/-- A statement. -/
def statement : Parser (List Node) := do
  skipMarkupComments
  let rest := (← cursor).mark.rest
  match rest with
  | [] => fail
  | ';' :: _ => node .emptyStatement (punct ";")
  | '{' :: behind =>
    match ← optional? (block go) with
    | some found => return found
    | none =>
      let inside := (Cursor.start behind).mark.rest
      if (← exhausted) || statementWords.any (fun w => wordBegins w.toList inside) then fail
      else expressionStatement go
  | '@' :: _ =>
    if ← wouldAccept (seq [many (decorator go), keyword "export"]) then exportStatement go
    else classDeclaration go <|> expressionStatement go
  | _ =>
    match wordAt rest with
    | "" => expressionStatement go
    | "if" => ifStatement go
    | "switch" => switchStatement go
    | "for" => forStatement go
    | "while" => whileStatement go
    | "do" => doStatement go
    | "try" => tryStatement go
    | "with" =>
      node .withStatement (seq [keyword "with", condition go, field .body (go .statement)])
    | "break" => jumpStatement .breakStatement "break"
    | "continue" => jumpStatement .continueStatement "continue"
    | "debugger" => node .debuggerStatement (seq [keyword "debugger", semicolon false])
    | "return" => returnStatement go
    | "throw" => node .throwStatement (seq [keyword "throw", expressions go .last, semicolon true])
    | word => wordStatement go word

end CodeAtlas.Grammar
