import CodeAtlas.Grammar.Parser

/-!
# Tokens

Punctuation, words, literals and the pieces of templates.  Punctuation is read by the longest
symbol that begins at the cursor, except where a grammar context knows only the shorter one
(`leading`), as with the `>` that closes a list of type arguments.
-/

namespace CodeAtlas.Grammar

open CodeAtlas.Syntax
open Character
open Grammar.Parser

/-! ### Punctuation -/

/-- The symbols of more than one character, longer ones first. -/
def compoundSymbols : List (List Char) :=
  [">>>=", "...", "===", "!==", "**=", "<<=", ">>=", ">>>", "&&=", "||=", "??=", "=>", "==", "!=",
    "<=", ">=", "&&", "||", "??", "?.", "++", "--", "+=", "-=", "*=", "/=", "%=", "&=", "|=", "^=",
    "<<", ">>", "**"].map String.toList

/-- The longest symbol at the beginning of a text. -/
def symbolAt (rest : List Char) : Option (List Char) :=
  match compoundSymbols.find? (·.isPrefixOf rest) with
  -- a conditional with a number behind its question mark
  | some ['?', '.'] =>
    if (rest.drop 2).head?.any Char.isDigit then some ['?'] else some ['?', '.']
  | some s => some s
  | none => match rest with
    | c :: _ => if isPunctuation c then some [c] else none
    | [] => none

/-- Reads the symbol `s` where it is the longest one at the cursor. -/
def punct (s : String) : Parser (List Node) := do
  guard (symbolAt (← cursor).mark.rest == some s.toList)
  take (.token s) s.length

/-- Reads the symbol `s` even where a longer one begins with it. -/
def leading (s : String) : Parser (List Node) := do
  guard (s.toList.isPrefixOf (← cursor).mark.rest)
  take (.token s) s.length

/-- Reads the symbol `s` if it follows the last token without a gap. -/
def adjacent (s : String) : Parser (List Node) := do
  let c ← cursor
  guard (s.toList.isPrefixOf c.raw.rest)
  let stop := c.raw.advance s.length
  moveTo (.behind stop)
  return [leaf (.token s) c.raw stop]

/-- The next symbol or character is `s`. -/
def symbolAhead (s : String) : Parser Bool := do
  return symbolAt (← cursor).mark.rest == some s.toList

/-! ### Words -/

/-- The number of characters of a Unicode escape at the beginning of a text. -/
def unicodeEscapeLength? : List Char → Option Nat
  | '\\' :: 'u' :: '{' :: rest =>
    let digits := rest.takeWhile isHexDigit
    if !digits.isEmpty && (rest.drop digits.length).head? == some '}' then
      some (digits.length + 4)
    else none
  | '\\' :: 'u' :: rest =>
    if rest.length ≥ 4 && (rest.take 4).all isHexDigit then some 6 else none
  | _ => none

/-- The number of characters that continue a name; `skip` of them belong to an escape. -/
def nameTailLength : Nat → List Char → Nat
  | _, [] => 0
  | skip + 1, _ :: rest => nameTailLength skip rest + 1
  | 0, c :: rest =>
    if continuesName c then nameTailLength 0 rest + 1
    else match unicodeEscapeLength? (c :: rest) with
      | some n => nameTailLength (n - 1) rest + 1
      | none => 0

/-- The number of characters of the name that begins here, zero if none does. -/
def nameLength (rest : List Char) : Nat :=
  if rest.head?.any Char.isDigit then 0 else nameTailLength 0 rest

/-- The name at the beginning of a text. -/
def wordAt (rest : List Char) : String := String.ofList (rest.take (nameLength rest))

/-- The word `w` stands at the beginning of a text. -/
def wordBegins (w : List Char) (rest : List Char) : Bool :=
  w.isPrefixOf rest && (rest.drop w.length).head?.all fun c => !(continuesName c || c = '\\')

/-- Reads the keyword `w`. -/
def keyword (w : String) : Parser (List Node) := do
  guard (wordBegins w.toList (← cursor).mark.rest)
  take (.token w) w.length

/-- The next word is `w`. -/
def wordAhead (w : String) : Parser Bool := do
  return wordBegins w.toList (← cursor).mark.rest

/-- The next word is one of `ws`. -/
def wordAmong (ws : List String) : Parser Bool := do
  let c ← cursor
  return ws.any fun w => wordBegins w.toList c.mark.rest

/-- Reads one of the keywords `ws`. -/
def keywordAmong (ws : List String) : Parser (List Node) := firstOf (ws.map keyword)

/-- Words that are names nowhere but behind a dot or as a key. -/
def reservedWords : List String :=
  ["break", "case", "catch", "class", "const", "continue", "debugger", "default", "delete", "do",
    "else", "export", "extends", "false", "finally", "for", "function", "if", "import", "in",
    "instanceof", "new", "null", "return", "super", "switch", "this", "throw", "true", "try",
    "typeof", "var", "void", "while", "with"]

/-- Reads any word as a name of kind `r`. -/
def anyWord (r : Rule) : Parser (List Node) := do
  let n := nameLength (← cursor).mark.rest
  guard (n > 0)
  take (.rule r) n

/-- Reads a name that is none of the words `blocked`. -/
def nameExcept (r : Rule) (blocked : List String) : Parser (List Node) := do
  let rest := (← cursor).mark.rest
  let n := nameLength rest
  guard (n > 0)
  guard (!blocked.contains (String.ofList (rest.take n)))
  take (.rule r) n

/-- Reads a name where no keyword is expected: any word where annotations are allowed, any but a
reserved one where they are not. -/
def plainName (r : Rule) : Parser (List Node) := do
  if (← language).typed then anyWord r else nameExcept r reservedWords

/-- Reads `#` and a name. -/
def privateName : Parser (List Node) := do
  let rest := (← cursor).mark.rest
  guard (rest.head? == some '#')
  let n := nameLength rest.tail
  guard (n > 0)
  take (.rule .privatePropertyIdentifier) (n + 1)

/-! ### Numbers -/

/-- The number of characters of digits of the class `isDigit`, with single underscores between. -/
def digitsLength (isDigit : Char → Bool) : List Char → Nat
  | [] => 0
  | [c] => if isDigit c then 1 else 0
  | c :: d :: rest =>
    if isDigit c then
      if isDigit d then digitsLength isDigit (d :: rest) + 1
      else if d = '_' && rest.head?.any isDigit then digitsLength isDigit rest + 2
      else 1
    else 0

/-- The number of characters of an exponent, zero if there is none. -/
def exponentLength : List Char → Nat
  | e :: rest =>
    if e = 'e' || e = 'E' then
      match rest with
      | s :: digits =>
        if s = '+' || s = '-' then
          let n := digitsLength Char.isDigit digits
          if n = 0 then 0 else n + 2
        else
          let n := digitsLength Char.isDigit rest
          if n = 0 then 0 else n + 1
      | [] => 0
    else 0
  | [] => 0

/-- The whole part may stand before a point or an exponent: it is `0` alone or has a leading digit
other than zero, perhaps behind one zero. -/
def wholePart : List Char → Bool
  | ['0'] => true
  | '0' :: d :: _ => d ≠ '0' && d ≠ '_'
  | _ => true

/-- The number of characters of a number in decimal notation, zero if there is none. -/
def decimalLength (rest : List Char) : Nat :=
  let whole := digitsLength Char.isDigit rest
  let after := rest.drop whole
  if whole = 0 then
    match rest with
    | '.' :: fraction =>
      let n := digitsLength Char.isDigit fraction
      if n = 0 then 0 else n + 1 + exponentLength (fraction.drop n)
    | _ => 0
  else if wholePart (rest.take whole) then
    match after with
    | '.' :: fraction =>
      let n := digitsLength Char.isDigit fraction
      whole + 1 + n + exponentLength (fraction.drop n)
    | 'n' :: _ => whole + 1
    | _ => whole + exponentLength after
  else if after.head? == some 'n' then whole + 1
  else whole

/-- The number of characters of digits behind a base mark such as `0x`. -/
def basedLength (isDigit : Char → Bool) (rest : List Char) : Nat :=
  let n := digitsLength isDigit rest
  if n = 0 then 0 else if (rest.drop n).head? == some 'n' then n + 3 else n + 2

/-- The number of characters of the number that begins here, zero if none does. -/
def numberLength (rest : List Char) : Nat :=
  let based := match rest with
    | '0' :: b :: digits =>
      if b = 'x' || b = 'X' then basedLength isHexDigit digits
      else if b = 'b' || b = 'B' then basedLength isBinaryDigit digits
      else if b = 'o' || b = 'O' then basedLength isOctalDigit digits
      else 0
    | _ => 0
  if based > 0 then based else decimalLength rest

/-- Reads a number. -/
def number : Parser (List Node) := do
  let n := numberLength (← cursor).mark.rest
  guard (n > 0)
  take (.rule .number) n

/-! ### Strings -/

/-- The number of characters of an escape sequence in a string or template, if it is well formed. -/
def escapeLength? : List Char → Option Nat
  | '\\' :: 'x' :: a :: b :: _ => if isHexDigit a && isHexDigit b then some 4 else none
  | '\\' :: 'u' :: rest => unicodeEscapeLength? ('\\' :: 'u' :: rest)
  | '\\' :: '\r' :: c :: _ => if endsLine c then some 3 else some 2
  | '\\' :: c :: rest =>
    if isOctalDigit c then some (2 + ((rest.take 2).takeWhile isOctalDigit).length)
    else if c = 'x' then none else some 2
  | _ => none

/-- The pieces of a string between its quotes: stretches of plain text and escapes. -/
def stringPieces (quote : Char) : Nat → Mark → List Node → List Node × Mark
  | 0, m, found => (found.reverse, m)
  | fuel + 1, m, found =>
    let plain := (m.rest.takeWhile fun c => c ≠ quote && c ≠ '\\' && c ≠ '\r' && c ≠ '\n').length
    if plain > 0 then
      let stop := m.advance plain
      stringPieces quote fuel stop (leaf (.rule .stringFragment) m stop :: found)
    else match escapeLength? m.rest with
      | some n =>
        let stop := m.advance n
        stringPieces quote fuel stop (leaf (.rule .escapeSequence) m stop :: found)
      | none => (found.reverse, m)

/-- Reads a string in the given quotes. -/
def quoted (quote : Char) : Parser (List Node) := node .string do
  let open_ ← leading (String.singleton quote)
  let c ← cursor
  let (pieces, stop) := stringPieces quote (c.raw.rest.length + 1) c.raw []
  moveTo (.behind stop)
  return open_ ++ pieces ++ (← leading (String.singleton quote))

/-- Reads a string. -/
def string : Parser (List Node) := do
  match (← cursor).mark.rest with
  | '"' :: _ => quoted '"'
  | '\'' :: _ => quoted '\''
  | _ => fail

/-! ### Templates and regular expressions -/

/-- The number of characters of plain text in a template. -/
def templateTextLength : List Char → Nat
  | [] => 0
  | c :: rest =>
    if c = '`' || c = '\\' then 0
    else if c = '$' && rest.head? == some '{' then 0
    else templateTextLength rest + 1

/-- Reads a stretch of a template that holds no substitution: plain text or an escape. -/
def templateText : Parser (List Node) := do
  let c ← cursor
  let n := templateTextLength c.raw.rest
  if n > 0 then
    guard (n < c.raw.rest.length)
    let stop := c.raw.advance n
    moveTo (.behind stop)
    return [leaf (.rule .stringFragment) c.raw stop]
  else match escapeLength? c.raw.rest with
    | some n =>
      let stop := c.raw.advance n
      moveTo (.behind stop)
      return [leaf (.rule .escapeSequence) c.raw stop]
    | none => fail

/-- The number of characters of a character class in a regular expression behind its bracket, the
closing bracket included. -/
def classLength : List Char → Option Nat
  | [] => none
  | ']' :: _ => some 1
  | '\\' :: c :: rest => if c = '\n' then none else (classLength rest).map (· + 2)
  | c :: rest => if c = '\n' || c = '\\' then none else (classLength rest).map (· + 1)

/-- The number of characters of the body of a regular expression; `skip` of them are part of a
character class. -/
def regexBodyLength : Nat → List Char → Nat
  | _, [] => 0
  | skip + 1, _ :: rest => regexBodyLength skip rest + 1
  | 0, '\\' :: c :: rest => if c = '\n' then 0 else regexBodyLength 0 rest + 2
  | 0, '[' :: rest => match classLength rest with
    | some n => regexBodyLength n rest + 1
    | none => 0
  | 0, c :: rest => if c = '/' || c = '\n' || c = '\\' then 0 else regexBodyLength 0 rest + 1

/-- Reads a regular expression with its flags. -/
def regex : Parser (List Node) := node .regex do
  let slash ← leading "/"
  let start := (← cursor).raw
  let n := regexBodyLength 0 start.rest
  let stop := start.advance n
  moveTo ⟨stop, stop, []⟩
  guard (n > 0)
  let close ← adjacent "/"
  let c ← cursor
  let flags := (c.raw.rest.takeWhile fun c => 'a' ≤ c && c ≤ 'z').length
  let last := c.raw.advance flags
  moveTo (.behind last)
  return slash ++ [leaf (.rule .regexPattern) start stop] ++ close
    ++ (if flags > 0 then [leaf (.rule .regexFlags) c.raw last] else [])

end CodeAtlas.Grammar
