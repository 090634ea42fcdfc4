import CodeAtlas.Grammar.TypeExpr

/-!
# Markup

Elements of markup with their attributes and children.
-/

namespace CodeAtlas.Grammar

open CodeAtlas.Syntax
open Character
open Grammar.Parser

variable (go : Descent)

/-- The number of characters of a name in markup, in which dashes may stand. -/
def markupNameLength (rest : List Char) : Nat :=
  let plain := nameLength rest
  if plain > 0 && (rest.drop plain).head? == some '-' then
    plain + ((rest.drop plain).takeWhile fun c =>
      c = '-' || c = '_' || c = '$' || c.isDigit || ('a' ≤ c && c ≤ 'z')
        || ('A' ≤ c && c ≤ 'Z')).length
  else plain

/-- A name in markup. -/
def markupName (r : Rule) : Parser (List Node) := do
  let n := markupNameLength (← cursor).mark.rest
  guard (n > 0)
  take (.rule r) n

/-- The name of an element: a name, a path of names, or a name in a namespace. -/
def elementName : Parser (List Node) := do
  let before ← cursor
  let first ← markupName .identifier
  if ← symbolAhead "." then
    nodeAfter .memberExpression before first
      (many1 (seq [punct ".", anyWord .propertyIdentifier]))
  else if ← symbolAhead ":" then
    nodeAfter .jsxNamespaceName before first (seq [punct ":", markupName .identifier])
  else return first

/-- An expression in braces. -/
def markupExpression : Parser (List Node) := node .jsxExpression (do
  let open_ ← punct "\x7b"
  let before ← cursor
  let body ← optional (do
    let first ← spread go <|> go (.expression .inner)
    if ← symbolAhead "," then
      nodeAfter .sequenceExpression before first
        (many1 (seq [punct ",", go (.expression .inner)]))
    else return first)
  return open_ ++ body ++ (← punct "\x7d"))

/-- The number of characters of a reference to a character, such as `&amp;`. -/
def referenceLength? : List Char → Option Nat
  | '&' :: '#' :: x :: rest =>
    let (mark, digits, most) := if x = 'x' || x = 'X'
      then (3, rest.takeWhile isHexDigit, 6) else (2, (x :: rest).takeWhile Char.isDigit, 5)
    let behind := if mark = 3 then rest else x :: rest
    if !digits.isEmpty && digits.length ≤ most && (behind.drop digits.length).head? == some ';' then
      some (mark + digits.length + 1)
    else none
  | '&' :: rest =>
    let letters := rest.takeWhile Char.isAlpha
    if !letters.isEmpty && letters.length ≤ 30 && (rest.drop letters.length).head? == some ';' then
      some (letters.length + 2)
    else none
  | _ => none

/-- Reads a piece of text from right behind the last token. -/
def takeRaw (r : Rule) (n : Nat) : Parser (List Node) := do
  let c ← cursor
  let stop := c.raw.advance n
  moveTo (.behind stop)
  return [leaf (.rule r) c.raw stop]

/-- A reference to a character. -/
def reference : Parser (List Node) := do
  match referenceLength? (← cursor).raw.rest with
  | some n => takeRaw .htmlCharacterReference n
  | none => fail

/-- The number of characters of plain text in a quoted attribute. -/
def attributeTextLength (quote : Char) : List Char → Nat
  | [] => 0
  | c :: rest =>
    if c = quote then 0
    else if c = '&' && rest.head?.any (fun d => d = '#' || d.isAlpha) then 0
    else attributeTextLength quote rest + 1

/-- A quoted attribute value. -/
def attributeString (quote : Char) : Parser (List Node) := node .string (do
  let open_ ← leading (String.singleton quote)
  let pieces ← many ((do
      let n := attributeTextLength quote (← cursor).raw.rest
      guard (n > 0)
      takeRaw .stringFragment n) <|> reference)
  return open_ ++ pieces ++ (← adjacent (String.singleton quote)))

/-- The value of an attribute. -/
def attributeValue : Parser (List Node) := do
  match (← cursor).mark.rest with
  | '"' :: _ => attributeString '"'
  | '\'' :: _ => attributeString '\''
  | '{' :: _ => markupExpression go
  | '<' :: _ => go .element
  | _ => fail

/-- An attribute of an element. -/
def elementAttribute : Parser (List Node) := do
  if ← symbolAhead "\x7b" then return ← markupExpression go
  node .jsxAttribute (do
    let before ← cursor
    let first ← markupName .propertyIdentifier
    let name ←
      if ← symbolAhead ":" then
        nodeAfter .jsxNamespaceName before first (seq [punct ":", markupName .identifier])
      else pure first
    if ← symbolAhead "=" then return name ++ (← seq [punct "=", attributeValue go])
    else return name)

/-- The number of characters of text between elements, and whether there is more to it than a line
end with the blanks behind it. -/
def elementTextLength : List Char → Bool → Bool → Nat × Bool
  | [], _, seen => (0, seen)
  | c :: rest, afterLineEnd, seen =>
    if "<>\x7b\x7d&".toList.contains c then (0, seen)
    else
      let afterLineEnd := c = '\n' || (afterLineEnd && isBreakable c)
      let (n, seen) := elementTextLength rest afterLineEnd (seen || !afterLineEnd)
      (n + 1, seen)

/-- One child of an element. -/
def elementChild : Parser (List Node) := do
  let c ← cursor
  let (n, seen) := elementTextLength c.raw.rest false false
  if seen then
    guard (n < c.raw.rest.length)
    takeRaw .jsxText n
  else
    let stop := c.raw.advance n
    match stop.rest with
    | '&' :: _ =>
      moveTo ⟨stop, stop, []⟩
      reference
    | '{' :: _ =>
      moveTo ⟨stop, stop, []⟩
      markupExpression go
    | '<' :: '/' :: _ => fail
    | '<' :: _ =>
      moveTo ⟨stop, stop, []⟩
      go .element
    | _ =>
      moveTo ⟨stop, stop, []⟩
      fail

/-- The closing tag of an element. -/
def closingTag : Parser (List Node) := do
  let c ← cursor
  let (n, _) := elementTextLength c.raw.rest false false
  let stop := c.raw.advance n
  moveTo ⟨stop, stop, []⟩
  node .jsxClosingElement (seq [leading "</", optional elementName, leading ">"])

/-- An element of markup. -/
def element : Parser (List Node) := do
  let before ← cursor
  let open_ ← leading "<"
  let typed := (← language).typed
  let name ← optional elementName
  let tag ← if name.isEmpty then pure [] else seq [
    if typed then optional (typeArguments go) else pure [], many (elementAttribute go)]
  let head := open_ ++ name ++ tag
  if !name.isEmpty && (← wouldAccept (leading "/>")) then
    nodeAfter .jsxSelfClosingElement before head (leading "/>")
  else
    let opening ← nodeAfter .jsxOpeningElement before head (leading ">")
    nodeAfter .jsxElement before opening (seq [many (elementChild go), closingTag])

end CodeAtlas.Grammar
