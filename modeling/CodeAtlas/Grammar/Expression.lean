import CodeAtlas.Grammar.Class

/-!
# Expressions

Operators by precedence, prefix operators, assignments, chains of member accesses and calls, and the
expressions that these are made of.
-/

namespace CodeAtlas.Grammar

open CodeAtlas.Syntax
open Character
open Grammar.Parser

variable (go : Descent)

/-! ### Commas, conditionals and infix operators -/

/-- Expressions with commas between them. -/
def expressions (p : Place) : Parser (List Node) := do
  let before ← cursor
  let first ← go (.expression p)
  if ← symbolAhead "," then
    nodeAfter .sequenceExpression before first
      (many1 (seq [punct ",", go (.expression p)]))
  else return first

/-- A conditional, or the infix operators it is made of. -/
def expression (p : Place) : Parser (List Node) := do
  let before ← cursor
  let test ← go (.infixChain p 0)
  if ← symbolAhead "?" then
    nodeAfter .ternaryExpression before test
      (seq [punct "?", go (.expression .beforeColon), punct ":", go (.expression p)])
  else return test

/-- How tightly an infix symbol binds. -/
def infixLevel : String → Option Nat
  | "??" => some 1
  | "||" => some 2
  | "&&" => some 3
  | "|" => some 4
  | "^" => some 5
  | "&" => some 6
  | "==" | "!=" | "===" | "!==" => some 7
  | "<" | ">" | "<=" | ">=" => some 8
  | "<<" | ">>" | ">>>" => some 9
  | "+" | "-" => some 10
  | "*" | "/" | "%" => some 11
  | "**" => some 12
  | _ => none

/-- An infix operator at the cursor. -/
inductive Infix where
  | symbol (spelling : String) (level : Nat)
  | word (spelling : String)
  /-- An operator whose right side is a type. -/
  | typed (spelling : String) (rule : Rule)

/-- How tightly an infix operator binds. -/
def Infix.level : Infix → Nat
  | symbol _ level => level
  | word _ | typed _ _ => 8

/-- The infix operator at the cursor. -/
def infixAhead (p : Place) : Parser (Option Infix) := do
  let rest := (← cursor).mark.rest
  let typed := (← language).typed
  match symbolAt rest with
  | some s =>
    let spelling := String.ofList s
    return (infixLevel spelling).map (Infix.symbol spelling)
  | none =>
    if p.allowIn && wordBegins "in".toList rest then return some (.word "in")
    else if wordBegins "instanceof".toList rest then return some (.word "instanceof")
    else if typed && wordBegins "as".toList rest then return some (.typed "as" .asExpression)
    else if typed && wordBegins "satisfies".toList rest then
      return some (.typed "satisfies" .satisfiesExpression)
    else return none

/-- Continues an operand with infix operators that bind more tightly than `level`. -/
def infixTail (p : Place) (level : Nat) (before : Cursor) :
    Nat → List Node → Parser (List Node)
  | 0, left => pure left
  | fuel + 1, left => do
    if p.ends && (← omissible true false) then return left
    match ← infixAhead p with
    | none => return left
    | some op =>
      if op.level ≤ level then return left
      let joined ← match op with
        | .symbol s l =>
          nodeAfter .binaryExpression before left (seq [field .operator (punct s),
            -- powers group to the right, all others to the left
            go (.infixChain p (if s == "**" then l - 1 else l))])
        | .word w =>
          nodeAfter .binaryExpression before left (seq [field .operator (keyword w),
            go (.infixChain p op.level)])
        | .typed w r =>
          nodeAfter r before left (seq [keyword w, keyword "const" <|> go .type])
      infixTail p level before fuel joined

/-- Operands joined by infix operators that bind more tightly than `level`. -/
def infixChain (p : Place) (level : Nat) : Parser (List Node) := do
  let before ← cursor
  let left ← go (.operand p)
  infixTail go p level before ((← cursor).raw.rest.length + 1) left

/-! ### Prefix operators and assignments -/

/-- The symbols that assign the result of an operation. -/
def assigningSymbols : List String :=
  ["+=", "-=", "*=", "/=", "%=", "^=", "&=", "|=", ">>=", ">>>=", "<<=", "**=", "&&=", "||=", "??="]

/-- Expressions of these kinds may be assigned to. -/
def isAssignable : Option Kind → Bool
  | some (.rule r) => [Rule.identifier, .undefined, .memberExpression, .subscriptExpression,
      .parenthesizedExpression, .nonNullExpression, .objectPattern, .arrayPattern].contains r
  | _ => false

/-- Continues an expression with an assignment to it, if one follows. -/
def assignmentTail (p : Place) (before : Cursor) (left : List Node) : Parser (List Node) := do
  if !isAssignable (lastKind? left) then return left
  match symbolAt (← cursor).mark.rest with
  | some ['='] =>
    nodeAfter .assignmentExpression before left (seq [punct "=", go (.expression p)])
  | some s =>
    let spelling := String.ofList s
    if assigningSymbols.contains spelling then
      nodeAfter .augmentedAssignmentExpression before left
        (seq [field .operator (punct spelling), go (.expression p)])
    else return left
  | none => return left

/-- An assignment to a pattern. -/
def patternAssignment (p : Place) : Parser (List Node) :=
  node .assignmentExpression (seq [destructuring go, punct "=", go (.expression p)])

/-- A chain, or an assignment to one or to a pattern. -/
def assignment (p : Place) : Parser (List Node) := do
  let before ← cursor
  if (← language).typed && (← wordAhead "using") then
    let bound ← optional? (node .assignmentExpression (do
      let word ← keyword "using"
      guard (!(← omissible true false))
      return word ++ (← seq [go .pattern, punct "=", go (.expression p)])))
    if let some found := bound then return found
  match before.mark.rest with
  | '[' :: _ | '{' :: _ =>
    match ← optional? (go (.chain p true)) with
    | some left =>
      if ← symbolAhead "=" then
        if [some (Kind.rule .object), some (.rule .array)].contains (lastKind? left) then
          moveTo before
          return ← patternAssignment go p
      assignmentTail go p before left
    | none => if ← exhausted then fail else patternAssignment go p
  | _ => assignmentTail go p before (← go (.chain p true))

/-- The word at the cursor can only be an operand of what stands before it. -/
def operandAhead : Parser Bool := do
  match (← cursor).mark.rest with
  | [] => return false
  | c :: _ =>
    if isPunctuation c then return "([\x7b\"'`!~+-/<@#\\".toList.contains c
    else return !(← wordAmong ["in", "instanceof", "of", "as", "satisfies"])

/-- An operand with its prefix operators, or an assignment. -/
def operand (p : Place) : Parser (List Node) := do
  skipMarkupComments
  let rest := (← cursor).mark.rest
  match rest with
  | [] => fail
  | c :: _ =>
    match symbolAt rest with
    | some s =>
      let spelling := String.ofList s
      if ["!", "~", "-", "+"].contains spelling then
        node .unaryExpression (seq [field .operator (punct spelling), go (.operand p)])
      else if ["++", "--"].contains spelling then
        node .updateExpression (seq [field .operator (punct spelling), go (.operand p)])
      else if c = '<' && (← language).typed && !(← language).markup then
        assignment go p
          <|> node .typeAssertion (seq [typeArguments go, go (.operand p)])
      else assignment go p
    | none =>
      if ← wordAmong ["typeof", "void", "delete"] then
        node .unaryExpression (seq [field .operator (keywordAmong ["typeof", "void", "delete"]),
          go (.operand p)])
      else if ← wordAhead "await" then
        let c ← cursor
        let _ ← keyword "await"
        let awaits ← operandAhead
        moveTo c
        if awaits then node .awaitExpression (seq [keyword "await", go (.operand p)])
        else assignment go p
      else if ← wordAhead "yield" then
        node .yieldExpression do
          let word ← keyword "yield"
          if p.ends && (← omissible false false) then return word
          if ← symbolAhead "*" then return word ++ (← seq [punct "*", go (.expression p)])
          return word ++ (← optional (go (.expression p)))
      else assignment go p

/-! ### Chains -/

/-- Continues an expression with member accesses, and with calls if `calls` is set. -/
def chainTail (p : Place) (calls : Bool) (before : Cursor) : Nat → List Node → Parser (List Node)
  | 0, left => pure left
  | fuel + 1, left => do
    if p.ends && (← omissible true false) then return left
    let typed := (← language).typed
    let member := privateName <|> anyWord .propertyIdentifier
    let subscript := seq [punct "[", expressions go .inner, punct "]"]
    match symbolAt (← cursor).mark.rest with
    | some ['.'] =>
      chainTail p calls before fuel
        (← nodeAfter .memberExpression before left (seq [punct ".", field .property member]))
    | some ['?', '.'] =>
      let dot ← node .optionalChain (punct "?.")
      if ← symbolAhead "[" then
        chainTail p calls before fuel
          (← nodeAfter .subscriptExpression before (left ++ dot) subscript)
      else if calls && (← symbolAhead "(") then
        chainTail p calls before fuel
          (← nodeAfter .callExpression before (left ++ dot) (arguments go))
      else if calls && typed && (← symbolAhead "<") then
        chainTail p calls before fuel
          (← nodeAfter .callExpression before (left ++ dot) (seq [typeArguments go, arguments go]))
      else
        chainTail p calls before fuel
          (← nodeAfter .memberExpression before (left ++ dot) (field .property member))
    | some ['['] =>
      chainTail p calls before fuel (← nodeAfter .subscriptExpression before left subscript)
    | some ['('] =>
      if calls then
        chainTail p calls before fuel (← nodeAfter .callExpression before left (arguments go))
      else return left
    | some ['`'] =>
      chainTail p calls before fuel (← nodeAfter .callExpression before left (template go))
    | some ['!'] =>
      if typed then
        chainTail p calls before fuel (← nodeAfter .nonNullExpression before left (punct "!"))
      else return left
    | some ['+', '+'] =>
      if calls then nodeAfter .updateExpression before left (field .operator (punct "++"))
      else return left
    | some ['-', '-'] =>
      if calls then nodeAfter .updateExpression before left (field .operator (punct "--"))
      else return left
    | some ['<'] =>
      if calls && typed then
        let generic := do
          let types ← typeArguments go
          match symbolAt (← cursor).mark.rest with
          | some ['('] => nodeAfter .callExpression before (left ++ types) (arguments go)
          | some ['`'] => nodeAfter .callExpression before (left ++ types) (template go)
          | _ =>
            if ← operandAhead then
              -- a comparison, unless the statement ends here
              guard (p.ends && (← omissible true false))
            nodeAfter .instantiationExpression before (left ++ types) (pure [])
        match ← optional? generic with
        | some called => chainTail p calls before fuel called
        | none => return left
      else return left
    | _ => return left

/-- An expression in parentheses. -/
def parenthesized : Parser (List Node) := node .parenthesizedExpression (do
  let open_ ← punct "("
  let body ← expressions go .inner
  let annotation ← if (← language).typed then optional (typeAscription go) else pure []
  return open_ ++ body ++ annotation ++ (← punct ")"))

/-- What begins with a parenthesis: an expression in parentheses, or a function whose parameters
these are. -/
def parenthesizedOrArrow (p : Place) : Parser (List Node) := do
  let before ← cursor
  match ← optional? (parenthesized go) with
  | some inside =>
    let behind ← cursor
    if ← symbolAhead "=>" then
      moveTo before
      arrowFunction go p
    else if (← language).typed && (← symbolAhead ":") then
      moveTo before
      (do let arrow ← arrowFunction go p
          if p.colon then guard (← symbolAhead ":")
          return arrow)
        <|> (do moveTo behind; return inside)
    else return inside
  | none => arrowFunction go p

/-- An array. -/
def array : Parser (List Node) := node .array
  (seq [punct "[", sparse (spread go <|> go (.expression .inner)), punct "]"])

/-- The words that begin an expression of their own. -/
def expressionWords (typed : Bool) : List String :=
  let always := ["function", "class", "new", "this", "super", "null", "true", "false", "import",
    "yield", "typeof", "void", "delete"]
  if typed then always else "yield" :: reservedWords.filter (· != "export")

/-- A name used as an expression. -/
def nameExpression : Parser (List Node) := do
  if ← wordAhead "undefined" then filedAs .undefined (anyWord .undefined)
  else nameExcept .identifier (expressionWords (← language).typed)

/-- What begins with `async`: a function, or the name. -/
def asyncExpression (p : Place) : Parser (List Node) := do
  let before ← cursor
  let _ ← keyword "async"
  let apart ← (do return p.ends && (← omissible true false))
  let functionAhead ← wordAhead "function"
  moveTo before
  if functionAhead && !apart then functionExpression go
  else if apart then nameExpression
  else
    -- the parameters are read first, and the body only once an arrow is found
    let arrow ← wouldAccept (seq [keyword "async", arrowHead go])
    if arrow then arrowFunction go p else nameExpression

/-- What begins with `new`. -/
def newExpression (p : Place) : Parser (List Node) :=
  node .metaProperty (seq [keyword "new", punct ".", keyword "target"])
    <|> node .newExpression (do
      let word ← keyword "new"
      let callee ← go (.chain p false)
      let types ← if (← language).typed then optional (typeArguments go) else pure []
      return word ++ callee ++ types ++ (← optional (arguments go)))

/-- What begins with `import`. -/
def importExpression : Parser (List Node) :=
  node .metaProperty (seq [keyword "import", punct ".", keyword "meta"])
    <|> node .callExpression (seq [node .dynamicImport (keyword "import"), arguments go])

/-- A word used as an expression, or what begins with it. -/
def wordExpression (p : Place) : Parser (List Node) := do
  match wordAt (← cursor).mark.rest with
  | "function" => functionExpression go
  | "class" => classExpression go
  | "new" => newExpression go p
  | "this" => node .this (keyword "this")
  | "super" => node .super (keyword "super")
  | "null" => node .null (keyword "null")
  | "true" => node .trueLiteral (keyword "true")
  | "false" => node .falseLiteral (keyword "false")
  | "import" => importExpression go
  | "async" => do
    let before ← cursor
    let _ ← keyword "async"
    let single ← symbolAhead "=>"
    moveTo before
    if single then arrowFunction go p else asyncExpression go p
  | _ => do
    let before ← cursor
    let name ← nameExpression
    if ← symbolAhead "=>" then
      moveTo before
      arrowFunction go p
    else return name

/-- What begins with `<`: a generic function, or an element of markup. -/
def angledExpression (p : Place) : Parser (List Node) := do
  let typed := (← language).typed
  if typed && (← wouldAccept (arrowHead go)) then arrowFunction go p
  else
    guard (← language).markup
    go .element

/-- A name, literal, function or bracketed expression. -/
def primary (p : Place) : Parser (List Node) := do
  match (← cursor).mark.rest with
  | [] => fail
  | c :: rest =>
    if c = '(' then parenthesizedOrArrow go p
    else if c = '[' then array go
    else if c = '{' then object go
    else if c = '"' || c = '\'' then string
    else if c = '`' then template go
    else if c = '/' then regex
    else if c = '#' then privateName
    else if c = '<' then angledExpression go p
    else if c = '@' then classExpression go
    else if c.isDigit || (c = '.' && rest.head?.any Char.isDigit) then number
    else wordExpression go p

/-- An expression without prefix operators. -/
def chain (p : Place) (calls : Bool) : Parser (List Node) := do
  let before ← cursor
  let head ← primary go p
  chainTail go p calls before ((← cursor).raw.rest.length + 1) head

end CodeAtlas.Grammar
