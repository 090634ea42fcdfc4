import CodeAtlas.Grammar.Token

/-!
# Omitted semicolons

A statement may end without a semicolon at the end of the text, before a closing brace, and where
the next token stands on a new line and cannot continue the statement.
-/

namespace CodeAtlas.Grammar

open CodeAtlas.Syntax
open Character
open Grammar.Parser

/-- How a scan over blanks and comments has ended. -/
inductive CommentScan where
  /-- A slash that begins no comment. -/
  | refused
  /-- A block comment without a line end in it. -/
  | sameLine (rest : List Char)
  /-- Everything was passed over, or a block comment with a line end in it. -/
  | passed (rest : List Char)

/-- The text behind a block comment and whether the comment contains a line end. -/
def passBlockComment : List Char → Bool → List Char × Bool
  | [], broken => ([], broken)
  | '*' :: '/' :: rest, broken => (rest, broken)
  | c :: rest, broken => passBlockComment rest (broken || endsLine c)

/-- Passes over blanks and comments.  Unless `all` is set the scan stops behind the first block
comment. -/
def passComments (all : Bool) : Nat → List Char → Bool → CommentScan
  | 0, rest, _ => .passed rest
  | fuel + 1, rest, broken =>
    match rest.dropWhile isBreakable with
    | '/' :: '/' :: rest => passComments all fuel (rest.dropWhile (!endsLine ·)) broken
    | '/' :: '*' :: rest =>
      let (rest, broken) := passBlockComment rest broken
      if !all && rest.head? != some '/' then
        if broken then .passed rest else .sameLine rest
      else passComments all fuel rest broken
    | '/' :: _ => .refused
    | rest => .passed rest

/-- The token at the beginning of `rest`, on a new line, cannot continue the statement.
`operator` says that an expression has just ended, `typed` that the language has annotations and
`signature` that the head of a function has just ended. -/
def startsStatement (typed operator signature : Bool) : List Char → Bool
  | [] => true
  | c :: rest =>
    if c = '{' then !signature
    else if c = '(' || c = '[' then typed && !operator
    else if "`,:;*%><=?^|&/".toList.contains c then false
    else if c = '.' then !typed && rest.head?.any Char.isDigit
    else if c = '+' then rest.head? == some '+'
    else if c = '-' then rest.head? == some '-'
    else if c = '!' then rest.head? != some '='
    else !wordBegins "in".toList (c :: rest) && !wordBegins "instanceof".toList (c :: rest)

/-- A semicolon may be omitted between the last token and the text behind it. -/
def semicolonOmitted (typed operator signature : Bool) : Nat → List Char → Bool
  | 0, _ => false
  | fuel + 1, rest =>
    match rest with
    | [] => true
    | '}' :: _ => true
    | '/' :: _ =>
      match commentLength? rest with
      | none => false
      | some n =>
        let stays := match passComments false (fuel + 1) rest false with
          | .passed (c :: _) => !typed && !operator && c ≠ ',' && c ≠ '='
          | .passed [] => true
          | _ => false
        stays || semicolonOmitted typed operator signature fuel (rest.drop n)
    | c :: rest =>
      if endsLine c then
        match passComments true (fuel + 1) rest false with
        | .passed rest => startsStatement typed operator signature rest
        | _ => false
      else isBreakable c && semicolonOmitted typed operator signature fuel rest

/-- Whether a semicolon may be omitted here. -/
def omissible (operator signature : Bool) : Parser Bool := do
  let rest := (← cursor).raw.rest
  match rest with
  | [] => return true
  | c :: _ =>
    if isBreakable c || c = '}' || c = '/' then
      return semicolonOmitted (← language).typed operator signature (rest.length + 1) rest
    else return false

/-- Reads a semicolon or notes that it is omitted.  `operator` says whether an expression has just
ended. -/
def semicolon (operator : Bool) : Parser (List Node) := do
  if ← symbolAhead ";" then punct ";"
  else if ← omissible operator false then pure []
  else fail

end CodeAtlas.Grammar
