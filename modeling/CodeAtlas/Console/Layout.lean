import CodeAtlas.Console.Cluster
import CodeAtlas.Path
import CodeAtlas.Text.Blank

/-!
# Lines of a limited width

A text is broken into lines between words.  The blanks behind a word belong to it, but need not fit.
-/

namespace CodeAtlas.Console

open CodeAtlas.Text

/-! ### Tabulators -/

/-- The distance of tabulators. -/
def tabDistance : Nat := 8

/-- The line with blanks up to the next tabulator in place of each `\t`; `line` is what the line has
so far. -/
def withoutTabsFrom (line : List Char) : List (List Char) → List Char
  | [] => line
  | [last] => line ++ last
  | first :: rest =>
    let line := line ++ first
    withoutTabsFrom (line ++ blanks (tabDistance - width line % tabDistance)) rest

/-- The line with blanks up to the next tabulator in place of each `\t`. -/
def withoutTabs (line : List Char) : List Char :=
  if line.contains '\t' then withoutTabsFrom [] (PathText.splitOn '\t' line) else line

/-! ### Words -/

/-- The text in pieces, of which all but the first begin with a character other than a blank behind
a blank. -/
def pieces : List Char → List (List Char)
  | [] => []
  | [c] => [[c]]
  | c :: d :: rest =>
    match pieces (d :: rest) with
    | [] => [[c]]
    | w :: ws => if isBlank c && !isBlank d then [c] :: w :: ws else (c :: w) :: ws

/-- The words of a text with the blanks behind them; the first one has the blanks before it too. -/
def paddedWords (cs : List Char) : List (List Char) :=
  match pieces cs with
  | first :: second :: rest =>
    if first.all isBlank then (first ++ second) :: rest else first :: second :: rest
  | ws => ws

/-! ### Lines -/

/-- The line before others, unless it is empty. -/
def endLine (line : List Char) (others : List (List Char)) : List (List Char) :=
  if line.isEmpty then others else line :: others

/-- Puts words into lines of at most `limit` columns; `line` is what the current line has so far and
`used` the columns of it.  A word that does not fit into a line of its own is folded, or else left
as it is. -/
def fillLines (limit : Nat) (overflow : Overflow) (line : List Char) (used : Nat) :
    List (List Char) → List (List Char)
  | [] => [line]
  | w :: ws =>
    let needed := width (dropTrailingBlanks w)
    if used + needed ≤ limit then fillLines limit overflow (line ++ w) (used + width w) ws
    else if limit < needed && overflow = .fold then
      let parts := chop limit w
      let last := parts.getLast?.getD []
      endLine line (parts.dropLast ++ fillLines limit overflow last (width last) ws)
    else endLine line (fillLines limit overflow w (width w) ws)

/-- The line without those blanks at its end that make it longer than `limit` characters. -/
def cropBlanks (limit : Nat) (line : List Char) : List Char :=
  let kept := (dropTrailingBlanks line).length
  line.take (max limit kept)

/-- Where a line stands within its width. -/
inductive Alignment where
  | start
  | centre
deriving DecidableEq, Inhabited

/-- The line at its place within the given width, cut off if it is wider. -/
def aligned (limit : Nat) (alignment : Alignment) (overflow : Overflow) (line : List Char) :
    List Char :=
  match alignment with
  | .start => truncated limit overflow line
  | .centre =>
    let line := truncated limit overflow (dropTrailingBlanks line)
    padded limit (blanks ((limit - width line) / 2) ++ line)

/-- A text in lines of at most `limit` columns; a line feed always ends a line. -/
def layOut (limit : Nat) (alignment : Alignment) (overflow : Overflow) (cs : List Char) :
    List (List Char) :=
  (PathText.splitOn '\n' cs).flatMap fun line =>
    (fillLines limit overflow [] 0 (paddedWords (withoutTabs line))).map fun l =>
      aligned limit alignment overflow (cropBlanks limit l)

/-- The character ends a line where the width of a text is measured. -/
def endsLine (c : Char) : Bool :=
  let n := c.toNat
  n = 10 || (0x1c ≤ n && n ≤ 0x1e) || n = 0x85 || n = 0x2028 || n = 0x2029

/-- How many columns the widest line of a text takes up. -/
def naturalWidth (cs : List Char) : Nat :=
  (((cs.splitBy fun a b => !endsLine a && !endsLine b).map width).max?).getD 0

end CodeAtlas.Console
