import CodeAtlas.Console.Block

/-!
# What is printed on a console

Blocks that are printed one below the other.  What is shown for the markup in their texts and how
they are drawn is up to a renderer; how many columns there are is up to the console.
-/

namespace CodeAtlas.Console

/-- What shows blocks on consoles.  A block whose markup can be read can be drawn, in any number of
columns. -/
structure Renderer where
  /-- The emoji that a code between two colons stands for. -/
  emoji : List Char → Option (List Char)
  /-- The text that is shown for a text with markup. -/
  plain : String → Except MarkupFault (List Char)
  /-- How many columns a text takes up. -/
  width : List Char → Nat
  /-- The lines that a text is broken into to have room in the given number of columns. -/
  wrap : Overflow → Nat → List Char → List (List Char)
  /-- For how many columns there is room in the cells of each column of a table. -/
  cellRooms : Nat → TableText → List Nat
  /-- For how many columns there is room in a panel with a title and a content. -/
  panelRoom : Nat → List Char → List Char → Nat
  /-- The lines of a block on a console with the given number of columns. -/
  lines : Nat → BlockText → List (List Char)

namespace Renderer

/-- The renderer with the emoji, styles and widths of characters that are listed here. -/
def standard : Renderer where
  emoji := Emoji.ofCode?
  plain := Markup.plain
  width := Console.width
  wrap overflow room cs := layOut room .start overflow cs
  cellRooms := TableText.cellRooms
  panelRoom := BlockText.panelRoom
  lines := BlockText.lines

end Renderer

/-- How many columns a console has of which nothing else is known. -/
def usualWidth : Nat := 160

/-- What has been printed, and what went wrong, if anything. -/
structure Printout where
  lines : List String
  fault : Option MarkupFault
deriving DecidableEq, Inhabited

/-- Prints blocks one below the other.  A block whose markup cannot be read is the end. -/
def print (blocks : List Block) (renderer : Renderer := .standard) (width : Nat := usualWidth) :
    Printout :=
  match blocks with
  | [] => ⟨[], none⟩
  | b :: rest =>
    match b.shown renderer.plain with
    | .error e => ⟨[], some e⟩
    | .ok text =>
      let p := print rest renderer width
      { p with lines := (renderer.lines width text).map String.ofList ++ p.lines }

end CodeAtlas.Console
