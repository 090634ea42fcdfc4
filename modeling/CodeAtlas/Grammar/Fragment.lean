import CodeAtlas.Grammar.Goal

/-!
# Fragments

Pieces that several productions share: arguments, type arguments, decorators, what may name a
property of an object, class or type, strings with substitutions, and the words that modify a member
only if the name of a member follows them.
-/

namespace CodeAtlas.Grammar

open CodeAtlas.Syntax
open Character
open Grammar.Parser

variable (go : Descent)

/-- Skips comments in the manner of markup, at most `fuel` of them. -/
def skipMarkupCommentsUpTo : Nat → Parser Unit
  | 0 => pure ()
  | fuel + 1 => do
    let c ← cursor
    if "<!--".toList.isPrefixOf c.mark.rest || "-->".toList.isPrefixOf c.mark.rest then
      let stop := c.mark.advance (c.mark.rest.takeWhile (!endsLine ·)).length
      let c' := Cursor.behind stop
      moveTo { c' with
        comments := c.comments ++ leaf (.rule .htmlComment) c.mark stop :: c'.comments }
      skipMarkupCommentsUpTo fuel
    else pure ()

/-- Skips comments in the manner of markup, which may stand where an operand or a statement is
expected. -/
def skipMarkupComments : Parser Unit := do
  skipMarkupCommentsUpTo ((← cursor).mark.rest.length + 1)

/-- Any number of statements. -/
def statements : Parser (List Node) := do
  let found ← many (go .statement)
  skipMarkupComments
  return found

/-- An expression spread into a list. -/
def spread : Parser (List Node) :=
  node .spreadElement (seq [punct "...", go (.expression .inner)])

/-- Arguments in parentheses. -/
def arguments : Parser (List Node) := node .arguments
  (seq [punct "(", sparse (spread go <|> go (.expression .inner)), punct ")"])

/-- Types in angle brackets. -/
def typeArguments : Parser (List Node) :=
  node .typeArguments (seq [leading "<", listed1 (go .type), leading ">"])

/-- A decorator: a name, perhaps of a member, perhaps with arguments; or an expression in
parentheses where annotations are allowed. -/
def decorator : Parser (List Node) := node .decorator do
  let mark ← punct "@"
  let before ← cursor
  if (← symbolAhead "(") && (← language).typed then
    return mark ++ (← node .parenthesizedExpression
      (seq [punct "(", go (.expression .inner), punct ")"]))
  let name ← plainName .identifier
  let path ←
    if ← symbolAhead "." then
      nodeAfter .memberExpression before name
        (many1 (seq [punct ".", field .property (anyWord .propertyIdentifier)]))
    else pure name
  let types ←
    if (← language).typed && (← symbolAhead "<") then typeArguments go else pure []
  if !types.isEmpty || (← symbolAhead "(") then
    return mark ++ (← nodeAfter .callExpression before (path ++ types) (arguments go))
  else return mark ++ path

/-- The name of a property: a word, a private name, a literal, or an expression in brackets. -/
def propertyName : Parser (List Node) :=
  firstOf [anyWord .propertyIdentifier, privateName, string, number,
    node .computedPropertyName (seq [punct "[", go (.expression .inner), punct "]"])]

/-- A template: text with substitutions in backquotes. -/
def template : Parser (List Node) := node .templateString do
  let open_ ← punct "`"
  let pieces ← many (templateText <|> node .templateSubstitution (do
    let mark ← adjacent "$\x7b"
    let before ← cursor
    let first ← go (.expression .inner)
    let body ← if ← symbolAhead "," then
        nodeAfter .sequenceExpression before first
          (many1 (seq [punct ",", go (.expression .inner)]))
      else pure first
    return mark ++ body ++ (← punct "\x7d")))
  return open_ ++ pieces ++ (← adjacent "`")

/-- The name of a member follows, perhaps behind further modifiers. -/
def memberNameAhead : Parser Bool := do
  match (← cursor).mark.rest with
  | [] => return false
  | c :: _ => return beginsName c || c.isDigit || "\\'\"[#*".toList.contains c

/-- Reads the word `w` as a modifier.  It is one only if the name of a member follows; where `ends`
is set, only if that name does not stand on a new line. -/
def modifier (ends : Bool) (w : String) : Parser (List Node) := do
  let word ← keyword w
  guard (← memberNameAhead)
  if ends then guard (!(← omissible false false))
  return word

/-- Reads one of the words that say who may access a member. -/
def accessibility (ends : Bool) : Parser (List Node) :=
  node .accessibilityModifier (firstOf (["public", "private", "protected"].map (modifier ends)))

/-- Reads the star of a generator. -/
def generatorStar : Parser (List Node) := do
  let star ← punct "*"
  guard (← memberNameAhead)
  return star

end CodeAtlas.Grammar
