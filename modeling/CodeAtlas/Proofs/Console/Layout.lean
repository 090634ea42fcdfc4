import CodeAtlas.Console.Block
import CodeAtlas.Proofs.Path.Components
import Mathlib.Data.List.Infix
import Mathlib.Data.List.TakeWhile

/-!
# What is in a line

Breaking a text into lines loses no character of it (`flatten_fillLines`).  So a text without
tabulators that is laid out in one line of which nothing has to be cut off is that line
(`layOut_eq_singleton`), whatever words it has; a text of ordinary characters that is narrow enough
is laid out so (`length_layOut_of_width_le`).  The lines of a text stand in lines of each table in
which it is a cell (`TableText.exists_mem_lines`), and of each panel of which it is the content
(`BlockText.exists_mem_panelLines`).
-/

namespace CodeAtlas

namespace PathText

/-! ### Parts of a text -/

theorem splitOn_append (sep : Char) (cs rest : List Char) :
    splitOn sep (cs ++ sep :: rest) = splitOn sep cs ++ splitOn sep rest := by
  induction cs with
  | nil => simp [splitOn]
  | cons c cs ih =>
    rw [List.cons_append, splitOn, splitOn]
    split_ifs
    · rw [ih, List.cons_append]
    · rw [ih]
      cases hcs : splitOn sep cs with
      | nil => exact absurd hcs (splitOn_ne_nil sep cs)
      | cons part parts => rfl

/-- Of texts joined by separators each that has none itself is one of the parts. -/
theorem mem_splitOn_intercalate {sep : Char} {part : List Char} {parts : List (List Char)}
    (hpart : part ∈ parts) (hsep : sep ∉ part) : part ∈ splitOn sep ([sep].intercalate parts) := by
  induction parts with
  | nil => cases hpart
  | cons first rest ih =>
    cases rest with
    | nil =>
      obtain rfl := List.mem_singleton.mp hpart
      rw [List.intercalate_singleton, splitOn_of_not_mem hsep]
      exact List.mem_singleton_self part
    | cons second rest =>
      rw [List.intercalate_cons_cons, List.append_assoc, List.singleton_append, splitOn_append]
      rcases List.mem_cons.mp hpart with rfl | hrest
      · rw [splitOn_of_not_mem hsep]
        exact List.mem_append_left _ (List.mem_singleton_self part)
      · exact List.mem_append_right _ (ih hrest)

end PathText

namespace Console

open CodeAtlas.Text

/-! ### Clusters -/

namespace Cluster

theorem flatMap_chars_extend (chars : List Char) (wider : Nat) (done : List Cluster) :
    (extend chars wider done).reverse.flatMap (·.chars)
      = done.reverse.flatMap (·.chars) ++ chars := by
  cases done with
  | nil => simp [extend]
  | cons k done => simp [extend]

theorem flatMap_chars_collect (done : List Cluster) (base : Option Char) (cs : List Char) :
    (collect done base cs).flatMap (·.chars) = done.reverse.flatMap (·.chars) ++ cs := by
  fun_induction collect done base cs <;> simp_all [flatMap_chars_extend]

/-- The clusters of a text have its characters. -/
theorem flatMap_chars_ofChars (cs : List Char) : (ofChars cs).flatMap (·.chars) = cs :=
  flatMap_chars_collect [] none cs

end Cluster

theorem flatten_chopFrom (n : Nat) (piece : List Char) (used : Nat) (ks : List Cluster) :
    (chopFrom n piece used ks).flatten = piece ++ ks.flatMap (·.chars) := by
  induction ks generalizing piece used with
  | nil => simp [chopFrom]
  | cons k ks ih =>
    rw [chopFrom]
    split_ifs
    · rw [List.flatten_cons, ih, List.flatMap_cons]
    · rw [ih, List.flatMap_cons, List.append_assoc]

/-- The pieces of a text have its characters. -/
theorem flatten_chop (n : Nat) (cs : List Char) : (chop n cs).flatten = cs := by
  rw [chop, flatten_chopFrom, List.nil_append, Cluster.flatMap_chars_ofChars]

/-! ### Words -/

theorem flatten_pieces (cs : List Char) : (pieces cs).flatten = cs := by
  fun_induction pieces cs with
  | case1 => rfl
  | case2 c => rfl
  | case3 c d rest hnil ih =>
    rw [hnil] at ih
    cases ih
  | case4 c d rest w ws hcons hbreak ih =>
    rw [List.flatten_cons, ← hcons, ih]
    rfl
  | case5 c d rest w ws hcons hbreak ih =>
    rw [List.flatten_cons, List.cons_append, ← List.flatten_cons, ← hcons, ih]

theorem flatten_paddedWords (cs : List Char) : (paddedWords cs).flatten = cs := by
  unfold paddedWords
  split
  · rename_i first second rest hpieces
    split_ifs
    · rw [← flatten_pieces cs, hpieces]
      simp
    · rw [← hpieces, flatten_pieces]
  · exact flatten_pieces cs

/-! ### Lines -/

theorem flatten_endLine (line : List Char) (others : List (List Char)) :
    (endLine line others).flatten = line ++ others.flatten := by
  unfold endLine
  split_ifs with hempty
  · rw [List.isEmpty_iff.mp hempty, List.nil_append]
  · rfl

theorem flatten_dropLast_append (parts : List (List Char)) :
    parts.dropLast.flatten ++ parts.getLast?.getD [] = parts.flatten := by
  rcases List.eq_nil_or_concat parts with rfl | ⟨init, last, rfl⟩
  · rfl
  · simp

/-- No character is lost when words are put into lines. -/
theorem flatten_fillLines (limit : Nat) (overflow : Overflow) (line : List Char) (used : Nat)
    (ws : List (List Char)) :
    (fillLines limit overflow line used ws).flatten = line ++ ws.flatten := by
  induction ws generalizing line used with
  | nil => simp [fillLines]
  | cons w ws ih =>
    rw [fillLines]
    dsimp only
    split_ifs
    · rw [ih, List.flatten_cons, List.append_assoc]
    · rw [flatten_endLine, List.flatten_append, ih, ← List.append_assoc _ _ ws.flatten,
        flatten_dropLast_append, flatten_chop, List.flatten_cons]
    · rw [flatten_endLine, ih, List.flatten_cons]

/-- A text without line feeds, put into lines. -/
def layOutLine (limit : Nat) (overflow : Overflow) (line : List Char) : List (List Char) :=
  (fillLines limit overflow [] 0 (paddedWords (withoutTabs line))).map fun l =>
    aligned limit .start overflow (cropBlanks limit l)

theorem layOut_eq (limit : Nat) (overflow : Overflow) (cs : List Char) :
    layOut limit .start overflow cs
      = (PathText.splitOn '\n' cs).flatMap (layOutLine limit overflow) := rfl

variable {limit : Nat} {overflow : Overflow} {cs : List Char}

theorem layOut_of_not_mem (hfeed : '\n' ∉ cs) :
    layOut limit .start overflow cs = layOutLine limit overflow cs := by
  rw [layOut_eq, PathText.splitOn_of_not_mem hfeed, List.flatMap_singleton]

/-- The lines of a text are those of its lines. -/
theorem layOut_subset {line text : List Char} (h : line ∈ PathText.splitOn '\n' text) :
    layOut limit .start overflow line ⊆ layOut limit .start overflow text := by
  intro l hl
  rw [layOut_of_not_mem (PathText.not_mem_of_mem_splitOn h)] at hl
  rw [layOut_eq]
  exact List.mem_flatMap.mpr ⟨line, h, hl⟩

theorem withoutTabs_eq_self (htab : '\t' ∉ cs) : withoutTabs cs = cs := by
  rw [withoutTabs, if_neg]
  rw [List.contains_iff_mem]
  exact htab

/-- A text that is laid out in one line is that line, if it has no tabulators and nothing has to be
cut off, neither what is too wide nor blanks at the end. -/
theorem layOut_eq_singleton (htab : '\t' ∉ cs) (hfeed : '\n' ∉ cs)
    (hlength : (layOut limit .start overflow cs).length = 1) (hwidth : width cs ≤ limit)
    (hblanks : cs.length ≤ limit ∨ dropTrailingBlanks cs = cs) :
    layOut limit .start overflow cs = [cs] := by
  rw [layOut_of_not_mem hfeed, layOutLine, withoutTabs_eq_self htab] at hlength ⊢
  rw [List.length_map] at hlength
  obtain ⟨line, hline⟩ := List.length_eq_one_iff.mp hlength
  have hflatten := flatten_fillLines limit overflow [] 0 (paddedWords cs)
  rw [hline, flatten_paddedWords, List.flatten_singleton, List.nil_append] at hflatten
  have hcrop : cropBlanks limit cs = cs := by
    rw [cropBlanks]
    apply List.take_of_length_le
    rcases hblanks with hshort | hkept
    · exact le_max_of_le_left hshort
    · exact le_max_of_le_right (by rw [hkept])
  have haligned : aligned limit .start overflow cs = cs := by
    show truncated limit overflow cs = cs
    unfold truncated
    exact if_pos hwidth
  rw [hline, hflatten, List.map_singleton, hcrop, haligned]

/-! ### Texts of ordinary characters -/

/-- Without joined characters a text is as wide as its characters. -/
theorem width_of_not_mem (hjoiner : joiner ∉ cs) (hselector : emojiSelector ∉ cs) :
    width cs = sumOf (cs.map columns) := by
  rw [width, if_neg]
  simp [hjoiner, hselector]

theorem sumOf_append (ms ns : List Nat) : sumOf (ms ++ ns) = sumOf ms + sumOf ns := by
  induction ms with
  | nil => simp [sumOf]
  | cons m ms ih =>
    show m + sumOf (ms ++ ns) = m + sumOf ms + sumOf ns
    rw [ih, Nat.add_assoc]

theorem fillLines_of_width_le {line : List Char} {used : Nat} {ws : List (List Char)}
    (hwidth : used + sumOf (ws.map width) ≤ limit)
    (htrailing : ∀ w ∈ ws, width (dropTrailingBlanks w) ≤ width w) :
    fillLines limit overflow line used ws = [line ++ ws.flatten] := by
  induction ws generalizing line used with
  | nil => simp [fillLines]
  | cons w ws ih =>
    have hsum : sumOf ((w :: ws).map width) = width w + sumOf (ws.map width) := rfl
    have hfirst := htrailing w List.mem_cons_self
    have hroom : used + width (dropTrailingBlanks w) ≤ limit := by omega
    rw [fillLines]
    dsimp only
    rw [if_pos hroom, ih (by omega) fun v hv => htrailing v (List.mem_cons_of_mem w hv),
      List.flatten_cons, List.append_assoc]

theorem sumOf_map_width {ws : List (List Char)} (h : ∀ w ∈ ws, joiner ∉ w ∧ emojiSelector ∉ w) :
    sumOf (ws.map width) = sumOf (ws.flatten.map columns) := by
  induction ws with
  | nil => rfl
  | cons w ws ih =>
    obtain ⟨hjoiner, hselector⟩ := h w List.mem_cons_self
    have hrest := ih fun v hv => h v (List.mem_cons_of_mem w hv)
    rw [List.flatten_cons, List.map_append, sumOf_append, ← hrest,
      ← width_of_not_mem hjoiner hselector]
    rfl

theorem prefix_dropTrailingBlanks (cs : List Char) : dropTrailingBlanks cs <+: cs := by
  have hsuffix := List.dropWhile_suffix (l := cs.reverse) isBlank
  rw [← List.reverse_prefix, List.reverse_reverse] at hsuffix
  exact hsuffix

/-- A text without line feeds, tabulators and joined characters that is narrow enough is laid out in
one line. -/
theorem length_layOut_of_width_le (hjoiner : joiner ∉ cs) (hselector : emojiSelector ∉ cs)
    (hfeed : '\n' ∉ cs) (htab : '\t' ∉ cs) (hwidth : width cs ≤ limit) :
    (layOut limit .start overflow cs).length = 1 := by
  have hplain : ∀ w ∈ paddedWords cs, joiner ∉ w ∧ emojiSelector ∉ w := by
    intro w hw
    have hsub : w ⊆ cs := by
      intro c hc
      rw [← flatten_paddedWords cs]
      exact List.mem_flatten_of_mem hw hc
    exact ⟨fun hmem => hjoiner (hsub hmem), fun hmem => hselector (hsub hmem)⟩
  have hwords : sumOf ((paddedWords cs).map width) = width cs := by
    rw [sumOf_map_width hplain, flatten_paddedWords, ← width_of_not_mem hjoiner hselector]
  have htrailing : ∀ w ∈ paddedWords cs, width (dropTrailingBlanks w) ≤ width w := by
    intro w hw
    obtain ⟨hwjoiner, hwselector⟩ := hplain w hw
    obtain ⟨blanks, hsplit⟩ := prefix_dropTrailingBlanks w
    have hsub := (prefix_dropTrailingBlanks w).subset
    rw [width_of_not_mem (fun hmem => hwjoiner (hsub hmem)) fun hmem => hwselector (hsub hmem),
      width_of_not_mem hwjoiner hwselector]
    conv_rhs => rw [← hsplit, List.map_append, sumOf_append]
    exact Nat.le_add_right _ _
  rw [layOut_of_not_mem hfeed, layOutLine, withoutTabs_eq_self htab,
    fillLines_of_width_le (by omega) htrailing]
  rfl

/-! ### Tables -/

namespace TableText

theorem length_reduceWidest (widest most excess count : Nat) (widths : List Nat) :
    (reduceWidest widest most excess count widths).length = widths.length := by
  induction widths generalizing excess count with
  | nil => rfl
  | cons w ws ih =>
    rw [reduceWidest]
    split_ifs
    · exact congrArg (· + 1) (ih _ _)
    · exact congrArg (· + 1) (ih _ _)

theorem length_narrow (limit fuel : Nat) (widths : List Nat) :
    (narrow limit fuel widths).length = widths.length := by
  induction fuel generalizing widths with
  | zero => rfl
  | succ fuel ih =>
    rw [narrow]
    dsimp only
    split_ifs
    · rfl
    · rw [ih, length_reduceWidest]

theorem length_columnWidths (limit : Nat) (t : TableText) :
    (t.columnWidths limit).length = t.headings.length := by
  rw [columnWidths, length_narrow, naturalWidths, List.length_map, List.length_zipIdx]

theorem length_cellRooms (limit : Nat) (t : TableText) :
    (t.cellRooms limit).length = t.headings.length := by
  rw [cellRooms, List.length_map, length_columnWidths]

/-- The greatest of numbers is at least each of them. -/
theorem le_foldl_max {init n : Nat} {ns : List Nat} (h : n ≤ init ∨ n ∈ ns) :
    n ≤ ns.foldl max init := by
  induction ns generalizing init with
  | nil => exact h.resolve_right List.not_mem_nil
  | cons m ns ih =>
    rw [List.foldl_cons]
    apply ih
    rcases h with h | h
    · exact Or.inl (h.trans (Nat.le_max_left init m))
    · rcases List.mem_cons.mp h with rfl | h
      · exact Or.inl (Nat.le_max_right init n)
      · exact Or.inr h

theorem infix_flatMap_of_mem {α β : Type} {x : α} {xs : List α} (h : x ∈ xs) (f : α → List β) :
    f x <:+: xs.flatMap f := by
  obtain ⟨before, after, rfl⟩ := List.append_of_mem h
  exact ⟨before.flatMap f, after.flatMap f, by simp⟩

/-- Each line of a cell stands in a line of its row. -/
theorem exists_mem_rowLines {widths : List Nat} {row : List (List Char)} {w : Nat}
    {cell line : List Char} (h : (w, cell) ∈ widths.zip row) (hline : line ∈ cellLines w cell) :
    ∃ shown ∈ rowLines widths row, line <:+: shown := by
  obtain ⟨i, hi, rfl⟩ := List.mem_iff_getElem.mp hline
  have hcell := List.mem_map_of_mem (f := fun p => (p.1, cellLines p.1 p.2)) h
  -- A row is as high as its highest cell, so it has a line for the line of the cell.
  have hheight := @le_foldl_max 1 _ _
    (Or.inr (List.mem_map_of_mem (f := fun p => p.2.length) hcell))
  refine ⟨_, List.mem_map.mpr ⟨i, List.mem_range.mpr (hi.trans_le hheight), rfl⟩, ?_⟩
  have hinfix := infix_flatMap_of_mem hcell fun p => (p.2[i]?).getD (blanks p.1)
  rwa [List.getElem?_eq_getElem hi, Option.getD_some] at hinfix

/-- Each line of a cell stands in a line of the table. -/
theorem exists_mem_lines {limit room : Nat} {t : TableText} {row : List (List Char)}
    {cell line : List Char} (hrow : row ∈ t.rows) (h : (room, cell) ∈ (t.cellRooms limit).zip row)
    (hline : line ∈ layOut room .start .ellipsis cell) :
    ∃ shown ∈ t.lines limit, line <:+: shown := by
  rw [cellRooms, List.zip_map_left, List.mem_map] at h
  obtain ⟨⟨w, text⟩, hmem, heq⟩ := h
  obtain ⟨rfl, rfl⟩ : w - margins = room ∧ text = cell := Prod.mk.inj heq
  have hcell : ' ' :: (padded (w - margins) line ++ [' ']) ∈ cellLines w text :=
    List.mem_map.mpr ⟨line, hline, rfl⟩
  have hpadded : line <:+: ' ' :: (padded (w - margins) line ++ [' ']) :=
    ⟨[' '], blanks (w - margins - width line) ++ [' '], by simp [padded]⟩
  obtain ⟨shown, hshown, hinfix⟩ := exists_mem_rowLines hmem hcell
  refine ⟨shown, ?_, hpadded.trans hinfix⟩
  rw [lines]
  exact List.mem_append_right _ (List.mem_flatMap.mpr ⟨row, List.mem_cons_of_mem _ hrow, hshown⟩)

end TableText

/-! ### Panels -/

namespace BlockText

/-- Each line of a panel's text stands in a line of the panel. -/
theorem exists_mem_panelLines {limit : Nat} {title content line : List Char}
    (h : line ∈ layOut (panelRoom limit title content) .start .fold content) :
    ∃ shown ∈ panelLines limit title content, line <:+: shown := by
  have hmem := List.mem_map_of_mem (f := fun line => '│' :: ' ' ::
    (padded (panelRoom limit title content) line ++ [' ', '│'])) h
  refine ⟨_, List.mem_append_left _ (List.mem_cons_of_mem _ hmem), ?_⟩
  exact ⟨['│', ' '], blanks (panelRoom limit title content - width line) ++ [' ', '│'],
    by simp [padded]⟩

end BlockText

end Console

end CodeAtlas
