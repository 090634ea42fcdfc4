import CodeAtlas.Console.Renderer
import CodeAtlas.Proofs.Console.Layout
import CodeAtlas.Proofs.Console.Markup

/-!
# What is relied on of a renderer

Renderers differ in which emoji have names, how wide characters are and how widths are shared out.
What is relied on is less.  A renderer reads markup (`ReadsMarkup`): a text without markup is shown
as it is, the tags of a style are not shown, and a tag that ends a style has to find one that has
begun.  And it lays texts out (`LaysOut`): a text that fits into a line (`FitsLine`) is that line,
and the lines of a text stand in the lines of the table or panel that it is in.

The standard renderer is such a one (`standard_readsMarkup`, `standard_laysOut`).
-/

namespace CodeAtlas.Console.Renderer

open Markup (IsBare IsInert IsWord tag)

/-- The renderer reads markup. -/
structure ReadsMarkup (r : Renderer) : Prop where
  /-- A text without markup is shown as it is. -/
  plain_inert {text : String} (h : IsInert r.emoji text.toList) : r.plain text = .ok text.toList
  /-- A style that begins and ends is not shown. -/
  plain_styled {name cs tail : List Char} (hname : IsWord name) (hcs : IsBare r.emoji cs)
    (htail : IsInert r.emoji tail) :
    r.plain (String.ofList (tag name ++ (cs ++ (tag ('/' :: name) ++ tail)))) = .ok (cs ++ tail)
  /-- A style that begins is not shown even if it does not end. -/
  plain_begun {name before tail : List Char} (hname : IsWord name)
    (hbefore : IsBare r.emoji before) (htail : IsInert r.emoji tail) :
    r.plain (String.ofList (before ++ (tag name ++ tail))) = .ok (before ++ tail)
  /-- The end of a style that has not begun is a fault. -/
  plain_unmatched {name before tail : List Char} (hname : IsWord name)
    (hbefore : IsBare r.emoji before) (htail : IsInert r.emoji tail) :
    r.plain (String.ofList (before ++ (tag ('/' :: name) ++ tail)))
      = .error (.unmatched (String.ofList (tag ('/' :: name))) before.length)

/-- The text fits into one line of `room` columns: it has no tabulators, is broken into no more
lines, and nothing has to be cut off from it, neither what is too wide nor blanks at the end. -/
structure FitsLine (r : Renderer) (overflow : Overflow) (room : Nat) (cs : List Char) : Prop where
  room_pos : 0 < room
  noTab : '\t' ∉ cs
  noFeed : '\n' ∉ cs
  length_wrap : (r.wrap overflow room cs).length = 1
  width_le : r.width cs ≤ room
  keepsBlanks : cs.length ≤ room ∨ Text.dropTrailingBlanks cs = cs

instance (r : Renderer) (overflow : Overflow) (room : Nat) (cs : List Char) :
    Decidable (r.FitsLine overflow room cs) :=
  decidable_of_iff (0 < room ∧ '\t' ∉ cs ∧ '\n' ∉ cs ∧ (r.wrap overflow room cs).length = 1 ∧
      r.width cs ≤ room ∧ (cs.length ≤ room ∨ Text.dropTrailingBlanks cs = cs))
    ⟨fun ⟨hroom, htab, hfeed, hlength, hwidth, hblanks⟩ =>
        ⟨hroom, htab, hfeed, hlength, hwidth, hblanks⟩,
      fun ⟨hroom, htab, hfeed, hlength, hwidth, hblanks⟩ =>
        ⟨hroom, htab, hfeed, hlength, hwidth, hblanks⟩⟩

/-- The renderer lays texts out in lines.  Where there is no room for a single column, or for a line
in it, nothing is relied on. -/
structure LaysOut (r : Renderer) : Prop where
  /-- A text that fits into one line is that line. -/
  wrap_eq {overflow : Overflow} {room : Nat} {cs : List Char} (h : r.FitsLine overflow room cs) :
    r.wrap overflow room cs = [cs]
  /-- A line feed ends a line and nothing else. -/
  wrap_subset {overflow : Overflow} {room : Nat} {line text : List Char}
    (h : line ∈ PathText.splitOn '\n' text) :
    r.wrap overflow room line ⊆ r.wrap overflow room text
  /-- The cells below each heading have their room. -/
  length_cellRooms {limit : Nat} {t : TableText}
    (h : ∀ row ∈ t.rows, row.length = t.headings.length) :
    (r.cellRooms limit t).length = t.headings.length
  /-- Each line of a cell stands in a line of the table. -/
  exists_mem_table {limit room : Nat} {t : TableText} {row : List (List Char)}
    {cell line : List Char} (hrow : row ∈ t.rows)
    (hcell : (room, cell) ∈ (r.cellRooms limit t).zip row) (hroom : 0 < room)
    (hline : line ∈ r.wrap .ellipsis room cell) (hwidth : r.width line ≤ room) :
    ∃ shown ∈ r.lines limit (.table t), line <:+: shown
  /-- Each line of a panel's content stands in a line of the panel. -/
  exists_mem_panel {limit : Nat} {title content line : List Char}
    (hroom : 0 < r.panelRoom limit title content)
    (hline : line ∈ r.wrap .fold (r.panelRoom limit title content) content)
    (hwidth : r.width line ≤ r.panelRoom limit title content) :
    ∃ shown ∈ r.lines limit (.panel title content), line <:+: shown

variable {r : Renderer}

/-- A text that fits into a line and is a line of another is among the lines of that. -/
theorem LaysOut.mem_wrap (h : r.LaysOut) {overflow : Overflow} {room : Nat} {line text : List Char}
    (hline : line ∈ PathText.splitOn '\n' text) (hfits : r.FitsLine overflow room line) :
    line ∈ r.wrap overflow room text := by
  apply h.wrap_subset hline
  rw [h.wrap_eq hfits]
  exact List.mem_singleton_self line

/-! ### The standard renderer -/

theorem standard_emoji : standard.emoji = Emoji.ofCode? := by rw [standard]

theorem standard_readsMarkup : standard.ReadsMarkup where
  plain_inert h := by
    rw [standard_emoji] at h
    exact Markup.plain_of_isInert h
  plain_styled hname hcs htail := by
    rw [standard_emoji] at hcs htail
    have h := Markup.plain_styled hname hcs.noBracket hcs.noBackslash htail.hasNoTag
      String.toList_ofList
    rwa [hcs.shown_eq, htail.shown_eq] at h
  plain_begun hname hbefore htail := by
    rw [standard_emoji] at hbefore htail
    have h := Markup.plain_begun hname hbefore.noBracket hbefore.noBackslash htail.hasNoTag
      String.toList_ofList
    rwa [hbefore.shown_eq, htail.shown_eq] at h
  plain_unmatched hname hbefore _ :=
    Markup.plain_unmatched hname hbefore.noBracket hbefore.noBackslash String.toList_ofList

theorem standard_laysOut : standard.LaysOut where
  wrap_eq h := layOut_eq_singleton h.noTab h.noFeed h.length_wrap h.width_le h.keepsBlanks
  wrap_subset h := layOut_subset h
  length_cellRooms _ := TableText.length_cellRooms _ _
  exists_mem_table hrow hcell _ hline _ := TableText.exists_mem_lines hrow hcell hline
  exists_mem_panel _ hline _ := BlockText.exists_mem_panelLines hline

/-- On the standard renderer a text of ordinary characters fits into a line if it is narrow
enough. -/
theorem standard_fitsLine {overflow : Overflow} {room : Nat} {cs : List Char} (hroom : 0 < room)
    (hjoiner : joiner ∉ cs) (hselector : emojiSelector ∉ cs) (hfeed : '\n' ∉ cs) (htab : '\t' ∉ cs)
    (hwidth : Console.width cs ≤ room)
    (hblanks : cs.length ≤ room ∨ Text.dropTrailingBlanks cs = cs) :
    standard.FitsLine overflow room cs where
  room_pos := hroom
  noTab := htab
  noFeed := hfeed
  length_wrap := length_layOut_of_width_le hjoiner hselector hfeed htab hwidth
  width_le := hwidth
  keepsBlanks := hblanks

end CodeAtlas.Console.Renderer
