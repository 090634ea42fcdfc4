import CodeAtlas.Console.Table

/-!
# Blocks

What is printed below each other on a console: lines, tables and panels.  A block is given with
markup in its texts, and drawn when they are known as they are to be shown.
-/

namespace CodeAtlas.Console

/-- Something to be printed; the texts have markup. -/
inductive Block where
  /-- An empty line. -/
  | blank
  /-- A text. -/
  | text (content : String)
  /-- A text in the middle; one without width is nothing. -/
  | centred (content : String)
  /-- A line with a title in its middle. -/
  | rule (title : String)
  | table (table : Table)
  /-- A text within a border that has a title. -/
  | panel (title content : String)
deriving Inhabited

/-- A block with its texts as they are shown. -/
inductive BlockText where
  | blank
  | text (content : List Char)
  | centred (content : List Char)
  | rule (title : List Char)
  | table (table : TableText)
  | panel (title content : List Char)
deriving Inhabited

namespace Block

/-- The block with its texts as `plain` has them shown. -/
def shown (plain : String → Except MarkupFault (List Char)) : Block → Except MarkupFault BlockText
  | blank => .ok .blank
  | text content => (plain content).map .text
  | centred content => (plain content).map .centred
  | rule title => (plain title).map .rule
  | table t => (t.shown plain).map .table
  | panel title content => do
    let title ← plain title
    return .panel title (← plain content)

end Block

namespace BlockText

/-- The character that lines are drawn with. -/
def stroke : Char := '─'

/-- A horizontal line of the given length. -/
def strokes (n : Nat) : List Char := List.replicate n stroke

/-- The text in one line. -/
def inOneLine (cs : List Char) : List Char :=
  withoutTabs (cs.map fun c => if c = '\n' then ' ' else c)

/-- The lines of a text in the middle, which lie in the middle of the widest of them. -/
def centredLines (limit : Nat) (content : List Char) : List (List Char) :=
  let inner := min limit (naturalWidth content)
  if inner = 0 then []
  else (layOut inner .centre .fold content).map fun line =>
    padded limit (blanks ((limit - inner) / 2) ++ line)

/-- A line with a title in its middle.  At either side of the title there are a blank and at least
one stroke. -/
def ruleLine (limit : Nat) (title : List Char) : List Char :=
  let title := truncated (limit - 4) .ellipsis (inOneLine title)
  let side := (limit - width title) / 2
  strokes (side - 1) ++ ' ' :: title ++ ' ' :: strokes (limit - side - width title - 1)

/-- The title of a panel, with a blank at either side. -/
def panelTitle (title : List Char) : List Char := ' ' :: inOneLine title ++ [' ']

/-- The columns between the borders of a panel: as many as the widest line and the title require,
and two for the blanks beside them. -/
def panelWidth (limit : Nat) (title content : List Char) : Nat :=
  min (limit - 2) (max (naturalWidth content + 2) (width (panelTitle title) + 2))

/-- The columns for the text of a panel. -/
def panelRoom (limit : Nat) (title content : List Char) : Nat := panelWidth limit title content - 2

/-- The lines of a text within a border that has a title. -/
def panelLines (limit : Nat) (title content : List Char) : List (List Char) :=
  let room := panelRoom limit title content
  let shownTitle := truncated room .fold (panelTitle title)
  let excess := room - width shownTitle
  let top := '╭' :: stroke ::
    (strokes (excess / 2) ++ shownTitle ++ strokes (excess - excess / 2) ++ [stroke, '╮'])
  let body := (layOut room .start .fold content).map fun line =>
    '│' :: ' ' :: (padded room line ++ [' ', '│'])
  let bottom := '╰' :: (strokes (panelWidth limit title content) ++ ['╯'])
  top :: body ++ [bottom]

/-- The lines of a block on a console with the given number of columns. -/
def lines (limit : Nat) : BlockText → List (List Char)
  | blank => [[]]
  | text content => layOut limit .start .fold content
  | centred content => centredLines limit content
  | rule title => [ruleLine limit title]
  | table t => t.lines limit
  | panel title content => panelLines limit title content

end BlockText

end CodeAtlas.Console
