import CodeAtlas.Syntax.Node
import CodeAtlas.Grammar.Character

/-!
# Parsers

A `Parser` reads from a `Cursor` and either hands on a value with the cursor behind what it has read
or gets stuck.  Both outcomes report the `Mark` furthest into the text at which a token was refused,
which is where a text that does not parse is said to be at fault.

A cursor stands behind a token: `raw` is the place right after it, `mark` the place of the next
token, and `comments` are the comments between the two.  Parsers of syntax return a list of nodes,
the comments before a node first and the node itself last.
-/

namespace CodeAtlas.Grammar

open CodeAtlas.Syntax
open Character

/-- A place in the text: what is left of it, how many characters came before and on which row. -/
structure Mark where
  rest : List Char
  offset : Nat
  row : Nat
deriving Inhabited

namespace Mark

/-- The place behind the next character. -/
def next (m : Mark) : Mark :=
  match m.rest with
  | [] => m
  | c :: rest => ⟨rest, m.offset + 1, if c = '\n' then m.row + 1 else m.row⟩

/-- The place `n` characters on. -/
def advance (m : Mark) : Nat → Mark
  | 0 => m
  | n + 1 => m.next.advance n

/-- The text from one place to a later one. -/
def textTo (start stop : Mark) : String :=
  String.ofList (start.rest.take (stop.offset - start.offset))

end Mark

/-! ### What stands between tokens -/

/-- The number of characters of a comment up to the end of the line. -/
def lineCommentLength (rest : List Char) : Nat :=
  (rest.takeWhile fun c => c ≠ '\r' && !endsLine c).length

/-- The number of characters up to and including the end of a block comment, if it ends. -/
def blockCommentLength : List Char → Option Nat
  | [] => none
  | '*' :: '/' :: _ => some 2
  | _ :: rest => (blockCommentLength rest).map (· + 1)

/-- The number of characters of the comment that begins here. -/
def commentLength? : List Char → Option Nat
  | '/' :: '/' :: rest => some (lineCommentLength rest + 2)
  | '/' :: '*' :: rest => (blockCommentLength rest).map (· + 2)
  | _ => none

/-- A node without children. -/
def leaf (kind : Kind) (start stop : Mark) : Node :=
  ⟨kind, none, start.row, stop.row, start.textTo stop, false, false, []⟩

/-- Skips blanks and comments, at most `fuel` of them, and collects the comments. -/
def skipTrivia : Nat → Mark → List Node → List Node × Mark
  | 0, m, found => (found.reverse, m)
  | fuel + 1, m, found =>
    match m.rest with
    | [] => (found.reverse, m)
    | c :: _ =>
      if isBlank c then skipTrivia fuel m.next found
      else match commentLength? m.rest with
        | some n =>
          let stop := m.advance n
          skipTrivia fuel stop (leaf (.rule .comment) m stop :: found)
        | none => (found.reverse, m)

/-- A place behind a token and before the next one, with the comments between them. -/
structure Cursor where
  raw : Mark
  mark : Mark
  comments : List Node
deriving Inhabited

namespace Cursor

/-- The cursor behind a token that ends at `raw`. -/
def behind (raw : Mark) : Cursor :=
  match raw.rest with
  | [] => ⟨raw, raw, []⟩
  | c :: rest =>
    if isBlank c || c = '/' then
      let (comments, mark) := skipTrivia (rest.length + 2) raw []
      ⟨raw, mark, comments⟩
    else ⟨raw, raw, []⟩

/-- The cursor at the beginning of a text. -/
def start (text : List Char) : Cursor := behind ⟨text, 0, 0⟩

/-- No token is left. -/
def atEnd (c : Cursor) : Bool := c.mark.rest.isEmpty

end Cursor

/-! ### Parsers -/

/-- Which language is read: with type annotations or without, and whether `<` may begin markup. -/
structure Language where
  typed : Bool
  markup : Bool
deriving DecidableEq, Repr, Inhabited

/-- The outcome of a parser, with the furthest refusal. -/
inductive Outcome (α : Type) where
  | done (value : α) (cursor : Cursor) (reach : Mark)
  | stuck (reach : Mark)
deriving Inhabited

/-- A parser of values of type `α`. -/
def Parser (α : Type) : Type := Language → Cursor → Mark → Outcome α

namespace Parser

variable {α β : Type}

/-- The later of two places. -/
def furthest (a b : Mark) : Mark := if a.offset < b.offset then b else a

/-- Reads nothing and answers `a`. -/
protected def pure (a : α) : Parser α := fun _ c reach => .done a c reach

/-- One parser after another. -/
protected def bind (p : Parser α) (f : α → Parser β) : Parser β := fun lang c reach =>
  match p lang c reach with
  | .done a c' reach' => f a lang c' reach'
  | .stuck reach' => .stuck reach'

instance : Monad Parser where
  pure := Parser.pure
  bind := Parser.bind

/-- Refuses the token at the cursor. -/
def fail : Parser α := fun _ c reach => .stuck (furthest reach c.mark)

/-- Tries `p`, and `q` from the same place if `p` gets stuck. -/
protected def orElse (p : Parser α) (q : Unit → Parser α) : Parser α := fun lang c reach =>
  match p lang c reach with
  | .done a c' reach' => .done a c' reach'
  | .stuck reach' => q () lang c reach'

instance : OrElse (Parser α) where
  orElse := Parser.orElse

/-- The language that is read. -/
def language : Parser Language := fun lang c reach => .done lang c reach

/-- The cursor. -/
def cursor : Parser Cursor := fun _ c reach => .done c c reach

/-- Goes on from another cursor. -/
def moveTo (c : Cursor) : Parser Unit := fun _ _ reach => .done () c reach

/-- Goes on only if `b` holds. -/
def guard (b : Bool) : Parser Unit := if b then pure () else fail

/-- Goes on only if the language has type annotations. -/
def typedOnly : Parser Unit := do guard (← language).typed

/-- Goes on only if the language has no type annotations. -/
def untypedOnly : Parser Unit := do guard (!(← language).typed)

/-- Whether `p` would succeed here; reads nothing. -/
def wouldAccept (p : Parser α) : Parser Bool := fun lang c reach =>
  match p lang c reach with
  | .done _ _ _ => .done true c reach
  | .stuck _ => .done false c reach

/-- Goes on only if `p` would not succeed here. -/
def notAhead (p : Parser α) : Parser Unit := do
  if ← wouldAccept p then fail else pure ()

/-- The value of `p` if it succeeds. -/
def optional? (p : Parser α) : Parser (Option α) := fun lang c reach =>
  match p lang c reach with
  | .done a c' reach' => .done (some a) c' reach'
  | .stuck reach' => .done none c reach'

/-- The nodes of `p` if it succeeds, else none. -/
def optional (p : Parser (List Node)) : Parser (List Node) := fun lang c reach =>
  match p lang c reach with
  | .done a c' reach' => .done a c' reach'
  | .stuck reach' => .done [] c reach'

/-- The first of the parsers that succeeds. -/
def firstOf : List (Parser α) → Parser α
  | [] => fail
  | p :: ps => p <|> firstOf ps

/-- All nodes of one parser after another. -/
def seq : List (Parser (List Node)) → Parser (List Node)
  | [] => pure []
  | p :: ps => do return (← p) ++ (← seq ps)

/-- Repeats `p` while it succeeds and moves on, at most `fuel` times. -/
def manyUpTo (p : Parser (List Node)) : Nat → List (List Node) → Parser (List Node)
  | 0, found => pure found.reverse.flatten
  | fuel + 1, found => fun lang c reach =>
    match p lang c reach with
    | .done ns c' reach' =>
      if c.raw.offset < c'.raw.offset then manyUpTo p fuel (ns :: found) lang c' reach'
      else .done found.reverse.flatten c reach'
    | .stuck reach' => .done found.reverse.flatten c reach'

/-- Repeats `p` while it succeeds. -/
def many (p : Parser (List Node)) : Parser (List Node) := do
  manyUpTo p ((← cursor).raw.rest.length + 1) []

/-- `p` at least once. -/
def many1 (p : Parser (List Node)) : Parser (List Node) := seq [p, many p]

/-- `p` at least once, with `sep` between. -/
def sepBy1 (p sep : Parser (List Node)) : Parser (List Node) := seq [p, many (seq [sep, p])]

/-! ### Nodes -/

/-- Builds one node from the nodes that a rule has read; comments before it stay outside. -/
def assemble (kind : Kind) (before after : Cursor) (nodes : List Node) : List Node :=
  before.comments ++
    [⟨kind, none, before.mark.row, after.raw.row, before.mark.textTo after.raw, false, false,
      nodes.drop before.comments.length⟩]

/-- What `p` reads becomes one node of the rule `r`. -/
def node (r : Rule) (p : Parser (List Node)) : Parser (List Node) := do
  let before ← cursor
  let nodes ← p
  return assemble (.rule r) before (← cursor) nodes

/-- What `p` reads becomes one node of the rule `r`, whose first part `head` was read from
`before` on. -/
def nodeAfter (r : Rule) (before : Cursor) (head : List Node) (p : Parser (List Node)) :
    Parser (List Node) := do
  let nodes ← p
  return assemble (.rule r) before (← cursor) (head ++ nodes)

/-- Applies `f` to the last node of a list, the one that follows its comments. -/
def onLast (f : Node → Node) : List Node → List Node
  | [] => []
  | [n] => [f n]
  | n :: ns => n :: onLast f ns

/-- The node that `p` reads fills the field `f`. -/
def field (f : Field) (p : Parser (List Node)) : Parser (List Node) := do
  return onLast (fun n => { n with field := some f }) (← p)

/-- The node that `p` reads is filed under the rule `r`. -/
def filedAs (r : Rule) (p : Parser (List Node)) : Parser (List Node) := do
  return onLast (fun n => { n with kind := .rule r }) (← p)

/-- Reads the next `n` characters as a node of the given kind. -/
def take (kind : Kind) (n : Nat) : Parser (List Node) := do
  let c ← cursor
  let stop := c.mark.advance n
  moveTo (.behind stop)
  return c.comments ++ [leaf kind c.mark stop]

end Parser

end CodeAtlas.Grammar
