import CodeAtlas.Grammar.Statement
import CodeAtlas.Grammar.Markup
import CodeAtlas.Dialect

/-!
# Programs

The recursion between the productions is tied here: `descend` reads a goal with a bound on the depth
of the descent, and `parse` reads a whole text with a bound that no text can reach.  A text that is
not a program of its dialect becomes a tree with an error node at the place where it is at fault.
-/

namespace CodeAtlas.Grammar

open CodeAtlas.Syntax
open Grammar.Parser

/-- Reads one goal, given the way to read those below it. -/
def production (go : Descent) : Goal → Parser (List Node)
  | .statement => statement go
  | .expression p => expression go p
  | .infixChain p level => infixChain go p level
  | .operand p => operand go p
  | .chain p calls => chain go p calls
  | .pattern => pattern go
  | .element => element go
  | .type => type go

/-- Reads a goal in at most the given number of levels. -/
def descend : Nat → Descent
  | 0, _ => fail
  | depth + 1, goal => production (descend depth) goal

/-- The first line, if it names an interpreter. -/
def hashBangLine : Parser (List Node) := do
  let c ← cursor
  guard ("#!".toList.isPrefixOf c.mark.rest)
  take (.rule .hashBangLine) (c.mark.rest.takeWhile fun c => c ≠ '\n' && c ≠ '\r').length

/-- The statements of a program. -/
def program (depth : Nat) : Parser (List Node) :=
  seq [optional hashBangLine, statements (descend depth)]

/-- The language of a dialect. -/
def languageOf : Dialect → Language
  | .javascript => ⟨false, true⟩
  | .typescript => ⟨true, false⟩
  | .tsx => ⟨true, true⟩

/-- The place behind the whole text. -/
def endMark (m : Mark) : Mark := m.advance m.rest.length

/-- More braces are opened than closed. -/
def leavesBraceOpen (rest : List Char) : Bool := rest.count '}' < rest.count '{'

/-- The row on which a text is at fault: that of the token which was refused, or, if the text ends
before what has been begun is complete, that of the statement at which reading `stopped`. -/
def faultRow (stopped : Cursor) (reach : Mark) : Nat :=
  if reach.rest.isEmpty || leavesBraceOpen stopped.mark.rest then stopped.mark.row else reach.row

/-- The tree of a text. -/
def parse (dialect : Dialect) (text : String) : Node :=
  let chars := text.toList
  let start := Cursor.start chars
  let last := endMark start.raw
  let root (faulty : Bool) (children : List Node) : Node :=
    ⟨.rule .program, none, start.mark.row, last.row, text, false, faulty, children⟩
  match program (64 * (chars.length + 1)) (languageOf dialect) start start.mark with
  | .done nodes stopped reach =>
    if stopped.atEnd then root false (nodes ++ stopped.comments)
    else
      let row := faultRow stopped reach
      root true (nodes ++ [⟨.rule .error, none, row, row, "", false, true, []⟩])
  | .stuck reach =>
    root true [⟨.rule .error, none, reach.row, reach.row, "", false, true, []⟩]

end CodeAtlas.Grammar
