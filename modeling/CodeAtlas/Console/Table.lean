import CodeAtlas.Console.Layout
import CodeAtlas.Console.Markup
import CodeAtlas.Number.Binary64

/-!
# Tables

A table has a title, a heading over each column and rows.  Each cell has a blank at either side.  A
table that is too wide has its widest columns narrowed, those that are equally wide by the same
amount.
-/

namespace CodeAtlas.Console

/-- A table; the texts have markup. -/
structure Table where
  title : String
  headings : List String
  rows : List (List String)
deriving DecidableEq, Inhabited

/-- The shown text of a table. -/
structure TableText where
  title : List Char
  headings : List (List Char)
  rows : List (List (List Char))
deriving DecidableEq, Inhabited

namespace Table

/-- The texts of a table as `plain` has them shown; the columns are read one after the other. -/
def shown (plain : String → Except MarkupFault (List Char)) (t : Table) :
    Except MarkupFault TableText := do
  let columns ← (t.headings.zipIdx).mapM fun (heading, i) => do
    let heading ← plain heading
    let cells ← t.rows.mapM fun row => plain ((row[i]?).getD "")
    return (heading, cells)
  let rows := (List.range t.rows.length).map fun i =>
    columns.map fun (_, cells) => (cells[i]?).getD []
  return ⟨← plain t.title, columns.map (·.1), rows⟩

end Table

namespace TableText

/-- The blanks at both sides of a cell. -/
def margins : Nat := 2

/-- The widths that columns have if there is room for all cells. -/
def naturalWidths (limit : Nat) (t : TableText) : List Nat :=
  t.headings.zipIdx.map fun (heading, i) =>
    let cells := t.rows.map fun row => (row[i]?).getD []
    min limit ((heading :: cells).foldl (fun w cell => max w (naturalWidth cell)) 0 + margins)

/-- Takes `excess` columns away, at most `most` from each of the columns with the given width;
`count` is the number of those. -/
def reduceWidest (widest most : Nat) : (excess count : Nat) → List Nat → List Nat
  | _, _, [] => []
  | excess, count, w :: ws =>
    if w = widest && 0 < count then
      let share := min most (Binary64.roundQuotient excess count)
      (w - share) :: reduceWidest widest most (excess - share) (count - 1) ws
    else w :: reduceWidest widest most excess count ws

/-- Narrows the widest columns, down to the next widest ones at most, until all fit into `limit`
columns. -/
def narrow (limit : Nat) : Nat → List Nat → List Nat
  | 0, widths => widths
  | fuel + 1, widths =>
    let excess := sumOf widths - limit
    let widest := widths.foldl max 0
    let next := (widths.filter (· != widest)).foldl max 0
    if excess = 0 || widest = next then widths
    else
      let most := min excess (widest - next)
      narrow limit fuel (reduceWidest widest most excess (widths.count widest) widths)

/-- The widths of the columns of a table in `limit` columns. -/
def columnWidths (limit : Nat) (t : TableText) : List Nat :=
  let widths := t.naturalWidths limit
  narrow limit (sumOf widths) widths

/-- For how many columns there is room in the cells of each column of the table. -/
def cellRooms (limit : Nat) (t : TableText) : List Nat := (t.columnWidths limit).map (· - margins)

/-- The lines of a cell, with its margins. -/
def cellLines (width : Nat) (cell : List Char) : List (List Char) :=
  (layOut (width - margins) .start .ellipsis cell).map fun line =>
    ' ' :: (padded (width - margins) line ++ [' '])

/-- The lines of a row. -/
def rowLines (widths : List Nat) (row : List (List Char)) : List (List Char) :=
  let cells := (widths.zip row).map fun (w, cell) => (w, cellLines w cell)
  let height := (cells.map fun (_, lines) => lines.length).foldl max 1
  (List.range height).map fun i => cells.flatMap fun (w, lines) => (lines[i]?).getD (blanks w)

/-- The lines of a table in `limit` columns. -/
def lines (limit : Nat) (t : TableText) : List (List Char) :=
  let widths := t.columnWidths limit
  layOut (sumOf widths) .centre .fold t.title ++ (t.headings :: t.rows).flatMap (rowLines widths)

end TableText

end CodeAtlas.Console
