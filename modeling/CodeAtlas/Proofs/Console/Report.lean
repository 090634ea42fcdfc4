import CodeAtlas.Proofs.Console.Renderer
import CodeAtlas.Report

/-!
# Names in a report

On any renderer that reads markup and lays texts out, and on a console of any width: if nothing in
the texts of an analysis says how it is shown, a report on the analysis can be printed, and every
name that has room in a line stands in a line of it as it is (`Analysis.print_report`).  Texts are
printed without anything done to them before, so a name that looks like a tag is lost or makes the
printing fail (`Analysis.tagLikeNames_lost`).
-/

namespace CodeAtlas

namespace Console

/-! ### Tables -/

/-- A map that succeeds everywhere. -/
theorem mapM_eq_ok {α β ε : Type} {f : α → Except ε β} {g : α → β} {xs : List α}
    (h : ∀ x ∈ xs, f x = .ok (g x)) : xs.mapM f = .ok (xs.map g) := by
  induction xs with
  | nil => rfl
  | cons x xs ih =>
    rw [List.mapM_cons, h x List.mem_cons_self, ih fun y hy => h y (List.mem_cons_of_mem x hy)]
    rfl

namespace Table

/-- The table has a cell for each heading in each row, and `plain` has each of its texts shown as
`shown` says. -/
structure ShownAs (plain : String → Except MarkupFault (List Char)) (shown : String → List Char)
    (t : Table) : Prop where
  title : plain t.title = .ok (shown t.title)
  headings : ∀ heading ∈ t.headings, plain heading = .ok (shown heading)
  rectangular : ∀ row ∈ t.rows, row.length = t.headings.length
  cells : ∀ row ∈ t.rows, ∀ cell ∈ row, plain cell = .ok (shown cell)

/-- The table with something shown for each of its texts. -/
def mapTexts (shown : String → List Char) (t : Table) : TableText :=
  ⟨shown t.title, t.headings.map shown, t.rows.map (·.map shown)⟩

/-- The columns of a table with something shown for each of its texts. -/
def mapColumns (shown : String → List Char) (t : Table) : List (List Char × List (List Char)) :=
  t.headings.zipIdx.map fun (heading, i) =>
    (shown heading, t.rows.map fun row => shown ((row[i]?).getD ""))

variable {plain : String → Except MarkupFault (List Char)} {shown : String → List Char} {t : Table}

theorem map_fst_mapColumns (shown : String → List Char) (t : Table) :
    (t.mapColumns shown).map (·.1) = t.headings.map shown := by
  rw [mapColumns, List.map_map]
  conv_rhs => rw [← List.zipIdx_map_fst 0 t.headings, List.map_map]
  rfl

/-- The rows of a rectangular table, read off its columns. -/
theorem rows_mapColumns (h : ∀ row ∈ t.rows, row.length = t.headings.length) :
    ((List.range t.rows.length).map fun i =>
        (t.mapColumns shown).map fun (_, cells) => (cells[i]?).getD [])
      = t.rows.map (·.map shown) := by
  apply List.ext_getElem
  · simp
  intro i hi _
  have hrow : i < t.rows.length := by simpa using hi
  have hlength := h _ (List.getElem_mem hrow)
  simp only [List.getElem_map, List.getElem_range]
  apply List.ext_getElem
  · simp [mapColumns, hlength]
  intro j hj _
  have hcolumn : j < t.rows[i].length := by
    rw [hlength]
    simpa [mapColumns] using hj
  simp [mapColumns, hrow, hcolumn]

theorem ShownAs.shown_eq (h : ShownAs plain shown t) : t.shown plain = .ok (t.mapTexts shown) := by
  have hcolumns : (t.headings.zipIdx).mapM (fun (heading, i) => do
      let heading ← plain heading
      let cells ← t.rows.mapM fun row => plain ((row[i]?).getD "")
      return (heading, cells)) = .ok (t.mapColumns shown) := by
    refine mapM_eq_ok fun (heading, i) hmem => ?_
    have hheading := h.headings _ (List.fst_mem_of_mem_zipIdx hmem)
    have hcells : t.rows.mapM (fun row => plain ((row[i]?).getD ""))
        = .ok (t.rows.map fun row => shown ((row[i]?).getD "")) := by
      refine mapM_eq_ok fun row hrow => ?_
      have hi : i < row.length := by
        rw [h.rectangular row hrow]
        exact List.snd_lt_of_mem_zipIdx hmem
      rw [List.getElem?_eq_getElem hi]
      exact h.cells row hrow _ (List.getElem_mem hi)
    dsimp only at hheading ⊢
    rw [hheading, hcells]
    rfl
  unfold Table.shown
  rw [hcolumns, h.title]
  refine congrArg Except.ok ?_
  rw [mapTexts, ← map_fst_mapColumns, ← rows_mapColumns h.rectangular]

/-- A fault in the first name of a table is a fault of the table. -/
theorem shown_eq_error {heading name : String} {headings cells : List String}
    {rows : List (List String)} {cs : List Char} {fault : MarkupFault}
    (hheadings : t.headings = heading :: headings) (hrows : t.rows = (name :: cells) :: rows)
    (hheading : plain heading = .ok cs) (hname : plain name = .error fault) :
    t.shown plain = .error fault := by
  have hcells : ((name :: cells) :: rows).mapM (fun row => plain ((row[0]?).getD ""))
      = .error fault := by
    rw [List.mapM_cons, List.getElem?_cons_zero, Option.getD_some, hname]
    rfl
  unfold Table.shown
  rw [hheadings, hrows, List.zipIdx_cons, List.mapM_cons]
  dsimp only
  rw [hheading, hcells]
  rfl

/-- The texts of a table as they are. -/
def verbatim (t : Table) : TableText := t.mapTexts String.toList

/-- The table has a cell for each heading in each row, and its texts have no markup. -/
structure IsInert (emoji : List Char → Option (List Char)) (t : Table) : Prop where
  title : Markup.IsInert emoji t.title.toList
  headings : ∀ heading ∈ t.headings, Markup.IsInert emoji heading.toList
  rectangular : ∀ row ∈ t.rows, row.length = t.headings.length
  cells : ∀ row ∈ t.rows, ∀ cell ∈ row, Markup.IsInert emoji cell.toList

theorem IsInert.shown_eq {r : Renderer} (hread : r.ReadsMarkup) (h : t.IsInert r.emoji) :
    t.shown r.plain = .ok t.verbatim := by
  have hshown : ShownAs r.plain String.toList t :=
    ⟨hread.plain_inert h.title, fun heading hmem => hread.plain_inert (h.headings heading hmem),
      h.rectangular, fun row hrow cell hcell => hread.plain_inert (h.cells row hrow cell hcell)⟩
  exact hshown.shown_eq

end Table

/-! ### Blocks one below the other -/

/-- Blocks whose markup can be read are printed, each of them with all its lines. -/
theorem print_of_ok {r : Renderer} {width : Nat} {blocks : List Block}
    (h : ∀ b ∈ blocks, ∃ text, b.shown r.plain = .ok text) :
    (print blocks r width).fault = none ∧ ∀ b ∈ blocks, ∀ text, b.shown r.plain = .ok text →
      ∀ line ∈ r.lines width text, String.ofList line ∈ (print blocks r width).lines := by
  induction blocks with
  | nil => exact ⟨rfl, fun b hb => by cases hb⟩
  | cons first rest ih =>
    obtain ⟨hfault, hlines⟩ := ih fun b hb => h b (List.mem_cons_of_mem first hb)
    obtain ⟨text, htext⟩ := h first List.mem_cons_self
    have hprint : print (first :: rest) r width
        = ⟨(r.lines width text).map String.ofList ++ (print rest r width).lines,
            (print rest r width).fault⟩ := by
      rw [print, htext]
    rw [hprint]
    refine ⟨hfault, fun b hb other hother line hline => ?_⟩
    rcases List.mem_cons.mp hb with rfl | hb
    · obtain rfl : text = other := Except.ok.inj (htext.symm.trans hother)
      exact List.mem_append_left _ (List.mem_map_of_mem hline)
    · exact List.mem_append_right _ (hlines b hb other hother line hline)

end Console

/-! ### Numbers -/

section Numbers

open Console.Markup

variable {emoji : List Char → Option (List Char)}

theorem isOrdinary_of_isDigit {c : Char} (h : c.isDigit = true) : isOrdinary c = true := by
  have hrange : 48 ≤ c.toNat ∧ c.toNat ≤ 57 := by
    rw [Char.isDigit, Bool.and_eq_true, decide_eq_true_eq, decide_eq_true_eq] at h
    exact h
  have hlarge : ∀ d : Char, 57 < d.toNat → c ≠ d := by
    rintro d hd rfl
    exact absurd hrange.2 (Nat.not_le.mpr hd)
  have hshown : isShown c = true := by
    simp only [isShown, Bool.not_eq_true', List.contains_eq_mem, decide_eq_false_iff_not]
    simp only [List.mem_cons, List.not_mem_nil, or_false]
    omega
  exact isOrdinary_iff.mpr
    ⟨hlarge '[' (by decide), hlarge ']' (by decide), hlarge ':' (by decide), hshown⟩

theorem isOrdinary_digits {n : Nat} {c : Char} (h : c ∈ (Decimal.digits n).toList) :
    isOrdinary c = true := by
  rw [Decimal.digits, String.toList_ofList] at h
  exact isOrdinary_of_isDigit (Nat.isDigit_of_mem_toDigits (by decide) (by decide) h)

theorem isOrdinary_int {n : Int} {c : Char} (h : c ∈ (toString n).toList) :
    isOrdinary c = true := by
  cases n with
  | ofNat n => exact isOrdinary_digits h
  | negSucc n =>
    have hsplit : toString (Int.negSucc n) = "-" ++ Decimal.digits (n + 1) := rfl
    rw [hsplit, String.toList_append] at h
    rcases List.mem_append.mp h with h | h
    · obtain rfl : c = '-' := List.mem_singleton.mp h
      decide
    · exact isOrdinary_digits h

theorem isInert_nat (n : Nat) : IsInert emoji (toString n).toList :=
  IsOrdinary.isInert fun _ hc => isOrdinary_digits hc

theorem isInert_int (n : Int) : IsInert emoji (toString n).toList :=
  IsOrdinary.isInert fun _ hc => isOrdinary_int hc

theorem isOrdinary_fixedRatio {places num den : Nat} {c : Char}
    (h : c ∈ (Decimal.fixedRatio places num den).toList) : isOrdinary c = true := by
  unfold Decimal.fixedRatio at h
  dsimp only at h
  split_ifs at h
  · exact isOrdinary_digits h
  · simp only [Decimal.padLeft, String.toList_append, String.toList_ofList, List.mem_append,
      List.mem_replicate] at h
    rcases h with (h | h) | ⟨-, rfl⟩ | h
    · exact isOrdinary_digits h
    · obtain rfl : c = '.' := List.mem_singleton.mp h
      decide
    · decide
    · exact isOrdinary_digits h

theorem isInert_fixed (places : Nat) (x : Double) :
    IsInert emoji (Decimal.fixed places x).toList := by
  cases x with
  | finite x =>
    refine IsOrdinary.isInert fun c hc => ?_
    rw [Decimal.fixed, String.toList_append] at hc
    rcases List.mem_append.mp hc with hc | hc
    · split_ifs at hc
      · obtain rfl : c = '-' := List.mem_singleton.mp hc
        decide
      · cases hc
    · exact isOrdinary_fixedRatio hc
  | infinite negative =>
    cases negative with
    | false => exact (by decide +kernel : IsOrdinary "inf".toList).isInert
    | true => exact (by decide +kernel : IsOrdinary "-inf".toList).isInert
  | nan => exact (by decide +kernel : IsOrdinary "nan".toList).isInert

end Numbers

namespace Analysis

open Console
open Console.Markup (IsOrdinary)

/-! ### What is in a report -/

/-- The texts that are printed in a report, numbers and fixed texts apart. -/
def printedTexts (a : Analysis) : List String :=
  [languageCounts a.metrics.languages, a.insights.architecturalStyle, a.insights.codeQuality,
      a.insights.complexityDistribution]
    ++ a.architecture.components.flatMap (fun c => [c.name, listed c.dependents])
    ++ a.insights.highComplexityFiles.map (·.path)
    ++ a.insights.hotspots.map (·.path)
    ++ ["\n".intercalate (notes a.insights), a.insights.learningPath.difficulty]

/-- The names that a report has to show: those of components and of files that stand out, and what
may be wrong. -/
def shownNames (a : Analysis) : List String :=
  a.architecture.components.map (·.name) ++ a.insights.highComplexityFiles.map (·.path)
    ++ a.insights.hotspots.map (·.path) ++ a.insights.potentialIssues

section Report

variable (r : Renderer) (width : Nat)

/-- A text fits into one line of the first column of a table. -/
def FitsFirstColumn (t : Table) (text : String) : Prop :=
  r.FitsLine .ellipsis ((r.cellRooms width t.verbatim).headD 0) text.toList

instance (t : Table) (text : String) : Decidable (FitsFirstColumn r width t text) :=
  inferInstanceAs (Decidable (r.FitsLine .ellipsis _ text.toList))

/-- The names that a report has to show each have room in one line. -/
structure NamesFit (a : Analysis) : Prop where
  components : ∀ c ∈ a.architecture.components,
    FitsFirstColumn r width (componentTable a.architecture.components) c.name
  files : ∀ f ∈ a.insights.highComplexityFiles,
    FitsFirstColumn r width (complexFileTable a.insights.highComplexityFiles) f.path
  hotspots : ∀ h ∈ a.insights.hotspots,
    FitsFirstColumn r width (hotspotTable a.insights.hotspots) h.path
  issues : ∀ issue ∈ a.insights.potentialIssues,
    r.FitsLine .fold (r.panelRoom width "Issues & Recommendations".toList
      ("\n".intercalate (notes a.insights)).toList) ("• " ++ issue).toList

end Report

/-! ### The blocks of a report -/

section Blocks

variable {emoji : List Char → Option (List Char)}

theorem isInert_summary {a : Analysis}
    (hlanguages : Markup.IsInert emoji (languageCounts a.metrics.languages).toList)
    (hstyle : Markup.IsInert emoji a.insights.architecturalStyle.toList)
    (hquality : Markup.IsInert emoji a.insights.codeQuality.toList)
    (hdistribution : Markup.IsInert emoji a.insights.complexityDistribution.toList) :
    a.summary.IsInert emoji where
  title := (by decide +kernel : IsOrdinary "Summary".toList).isInert
  headings heading hmem :=
    ((by decide +kernel : ∀ heading ∈ ["Metric", "Value"], IsOrdinary heading.toList) heading
      hmem).isInert
  rectangular := by simp [summary]
  cells := by
    have hordinary : ∀ metric ∈ ["Files", "Lines", "Languages", "Average complexity",
        "Max complexity", "Maintainability index", "Technical debt", "Architectural style",
        "Code quality", "Complexity"], IsOrdinary metric.toList := by decide +kernel
    simp only [summary, List.forall_mem_cons, List.not_mem_nil, false_imp_iff, implies_true,
      and_true] at hordinary ⊢
    obtain ⟨hfiles, hlines, hcounted, haverage, hmax, hindex, hdebt, hsort, hcode, hspread⟩ :=
      hordinary
    exact ⟨⟨hfiles.isInert, isInert_int _⟩, ⟨hlines.isInert, isInert_int _⟩,
      ⟨hcounted.isInert, hlanguages⟩, ⟨haverage.isInert, isInert_fixed _ _⟩,
      ⟨hmax.isInert, isInert_int _⟩, ⟨hindex.isInert, isInert_fixed _ _⟩,
      ⟨hdebt.isInert, isInert_fixed _ _⟩, ⟨hsort.isInert, hstyle⟩, ⟨hcode.isInert, hquality⟩,
      ⟨hspread.isInert, hdistribution⟩⟩

theorem isOrdinary_typeName (t : ComponentType) : IsOrdinary t.name.toList := by
  cases t <;> decide +kernel

theorem isInert_componentTable {components : List Component}
    (h : ∀ c ∈ components,
      Markup.IsInert emoji c.name.toList ∧ Markup.IsInert emoji (listed c.dependents).toList) :
    (componentTable components).IsInert emoji where
  title := (by decide +kernel : IsOrdinary "Components".toList).isInert
  headings heading hmem :=
    ((by decide +kernel : ∀ heading ∈ ["Component", "Type", "Files", "Complexity", "Dependents"],
      IsOrdinary heading.toList) heading hmem).isInert
  rectangular := by simp [componentTable]
  cells := by
    intro row hrow
    obtain ⟨c, hc, rfl⟩ := List.mem_map.mp hrow
    simp only [List.forall_mem_cons, List.not_mem_nil, false_imp_iff, implies_true, and_true]
    exact ⟨(h c hc).1, (isOrdinary_typeName _).isInert, isInert_nat _, isInert_int _, (h c hc).2⟩

/-- A table of paths, each with a number. -/
theorem isInert_pathTable {title first second : String} {α : Type} {xs : List α} {path : α → String}
    {number : α → Int} (hfixed : ∀ text ∈ [title, first, second], IsOrdinary text.toList)
    (h : ∀ x ∈ xs, Markup.IsInert emoji (path x).toList) :
    Table.IsInert emoji
      ⟨title, [first, second], xs.map fun x => [path x, toString (number x)]⟩ where
  title := (hfixed title List.mem_cons_self).isInert
  headings heading hmem := (hfixed heading (List.mem_cons_of_mem title hmem)).isInert
  rectangular := by simp
  cells := by
    intro row hrow
    obtain ⟨x, hx, rfl⟩ := List.mem_map.mp hrow
    simp only [List.forall_mem_cons, List.not_mem_nil, false_imp_iff, implies_true, and_true]
    exact ⟨h x hx, isInert_int _⟩

theorem isInert_complexFileTable {files : List ComplexFile}
    (h : ∀ f ∈ files, Markup.IsInert emoji f.path.toList) :
    (complexFileTable files).IsInert emoji :=
  isInert_pathTable (by decide +kernel :
    ∀ text ∈ ["High Complexity Files", "File", "Complexity"], IsOrdinary text.toList) h

theorem isInert_hotspotTable {hotspots : List Hotspot}
    (h : ∀ spot ∈ hotspots, Markup.IsInert emoji spot.path.toList) :
    (hotspotTable hotspots).IsInert emoji :=
  isInert_pathTable (by decide +kernel :
    ∀ text ∈ ["Hotspots", "File", "Commits"], IsOrdinary text.toList) h

/-- What it means for the parts of a report that its texts have no markup. -/
structure IsInert (emoji : List Char → Option (List Char)) (a : Analysis) : Prop where
  summary : a.summary.IsInert emoji
  components : (componentTable a.architecture.components).IsInert emoji
  files : (complexFileTable a.insights.highComplexityFiles).IsInert emoji
  hotspots : (hotspotTable a.insights.hotspots).IsInert emoji
  notes : Markup.IsInert emoji ("\n".intercalate (notes a.insights)).toList
  difficulty : Markup.IsInert emoji a.insights.learningPath.difficulty.toList

theorem isInert_of_printedTexts {a : Analysis}
    (h : ∀ text ∈ a.printedTexts, Markup.IsInert emoji text.toList) : a.IsInert emoji := by
  simp only [printedTexts, List.forall_mem_append, List.forall_mem_cons, List.forall_mem_flatMap,
    List.forall_mem_map, List.not_mem_nil, false_imp_iff, implies_true, and_true] at h
  obtain ⟨⟨⟨⟨⟨hlanguages, hstyle, hquality, hdistribution⟩, hcomponents⟩, hfiles⟩, hhotspots⟩,
    hnotes, hdifficulty⟩ := h
  exact ⟨isInert_summary hlanguages hstyle hquality hdistribution,
    isInert_componentTable hcomponents, isInert_complexFileTable hfiles,
    isInert_hotspotTable hhotspots, hnotes, hdifficulty⟩

end Blocks

/-! ### What is shown for the blocks -/

section Shown

variable {r : Renderer} {a : Analysis}

/-- What follows the difficulty in the line about learning. -/
def learningFigures (p : LearningPath) : List Char :=
  " (~".toList ++ ((toString p.estimatedHours).toList ++ ("h, ".toList ++
    ((toString p.modules.length).toList ++ " modules)".toList)))

theorem isOrdinary_learningFigures (p : LearningPath) : IsOrdinary (learningFigures p) := by
  have hfirst : IsOrdinary " (~".toList := by decide +kernel
  have hmiddle : IsOrdinary "h, ".toList := by decide +kernel
  have hlast : IsOrdinary " modules)".toList := by decide +kernel
  intro c h
  rw [learningFigures] at h
  simp only [List.mem_append] at h
  rcases h with h | h | h | h | h
  · exact hfirst c h
  · exact isOrdinary_int h
  · exact hmiddle c h
  · exact isOrdinary_digits h
  · exact hlast c h

/-- The line about learning is a text in a style and another behind it. -/
theorem learningLine_eq (p : LearningPath) :
    learningLine p = String.ofList (Markup.tag "subtitle".toList ++ ("Learning path:".toList ++
      (Markup.tag ('/' :: "subtitle".toList) ++
        (' ' :: (p.difficulty.toList ++ learningFigures p))))) := by
  have hline : learningLine p = "[subtitle]Learning path:[/subtitle] " ++ p.difficulty ++ " (~" ++
      toString p.estimatedHours ++ "h, " ++ toString p.modules.length ++ " modules)" := rfl
  have hmarkup : "[subtitle]Learning path:[/subtitle] ".toList
      = Markup.tag "subtitle".toList ++ ("Learning path:".toList ++
        (Markup.tag ('/' :: "subtitle".toList) ++ [' '])) := by decide +kernel
  rw [← String.toList_inj, String.toList_ofList, hline, learningFigures]
  simp only [String.toList_append, hmarkup, List.append_assoc, List.cons_append, List.nil_append]

theorem exists_plain_learningLine (hread : r.ReadsMarkup) {p : LearningPath}
    (h : Markup.IsInert r.emoji p.difficulty.toList) :
    ∃ cs, r.plain (learningLine p) = .ok cs := by
  have hlabel : Markup.IsBare (fun _ => some []) "Learning path:".toList := by decide +kernel
  have htail : Markup.IsInert r.emoji (' ' :: (p.difficulty.toList ++ learningFigures p)) :=
    (h.append (isOrdinary_learningFigures p)).cons (by decide) (by decide)
  rw [learningLine_eq]
  exact ⟨_, hread.plain_styled (by decide +kernel) hlabel.of_no_code htail⟩

/-- The title of the panel in a report. -/
theorem plain_panelTitle (hread : r.ReadsMarkup) :
    r.plain "[bold]Issues & Recommendations[/bold]" = .ok "Issues & Recommendations".toList := by
  have htext : "[bold]Issues & Recommendations[/bold]" = String.ofList (Markup.tag "bold".toList ++
      ("Issues & Recommendations".toList ++ (Markup.tag ('/' :: "bold".toList) ++ []))) := by
    decide +kernel
  have htitle : Markup.IsBare (fun _ => some []) "Issues & Recommendations".toList := by
    decide +kernel
  rw [htext, hread.plain_styled (by decide +kernel) htitle.of_no_code Markup.isInert_nil,
    List.append_nil]

theorem shown_table (hread : r.ReadsMarkup) {t : Table} (h : t.IsInert r.emoji) :
    Block.shown r.plain (.table t) = .ok (.table t.verbatim) := by
  rw [Block.shown, h.shown_eq hread]
  rfl

theorem shown_panel (hread : r.ReadsMarkup) {content : String}
    (h : Markup.IsInert r.emoji content.toList) :
    Block.shown r.plain (.panel "[bold]Issues & Recommendations[/bold]" content)
      = .ok (.panel "Issues & Recommendations".toList content.toList) := by
  rw [Block.shown, plain_panelTitle hread, hread.plain_inert h]
  rfl

theorem mem_shownIf {present : Bool} {b block : Block} :
    b ∈ shownIf present block ↔ present = true ∧ b = block := by
  cases present <;> simp [shownIf]

theorem exists_shown_of_mem_report (hread : r.ReadsMarkup) (h : a.IsInert r.emoji) {b : Block}
    (hb : b ∈ a.report) : ∃ text, b.shown r.plain = .ok text := by
  simp only [report, List.mem_append, List.mem_singleton, mem_shownIf] at hb
  rcases hb with ((((rfl | ⟨-, rfl⟩) | ⟨-, rfl⟩) | ⟨-, rfl⟩) | ⟨-, rfl⟩) | rfl
  · exact ⟨_, shown_table hread h.summary⟩
  · exact ⟨_, shown_table hread h.components⟩
  · exact ⟨_, shown_table hread h.files⟩
  · exact ⟨_, shown_table hread h.hotspots⟩
  · exact ⟨_, shown_panel hread h.notes⟩
  · obtain ⟨cs, hcs⟩ := exists_plain_learningLine hread h.difficulty
    exact ⟨.text cs, by rw [Block.shown, hcs]; rfl⟩

/-- What is in the first column of a table stands in a line of it if it has room. -/
theorem exists_mem_table_of_fits (hlay : r.LaysOut) {width : Nat} {t : Table} {name : String}
    {cells : List String} (hrectangular : ∀ row ∈ t.rows, row.length = t.headings.length)
    (hrow : name :: cells ∈ t.rows) (hfits : FitsFirstColumn r width t name) :
    ∃ line ∈ r.lines width (.table t.verbatim), name.toList <:+: line := by
  have hlength : (r.cellRooms width t.verbatim).length = t.verbatim.headings.length := by
    refine hlay.length_cellRooms fun row hmem => ?_
    obtain ⟨texts, htexts, rfl⟩ := List.mem_map.mp hmem
    simpa [Table.verbatim, Table.mapTexts] using hrectangular texts htexts
  cases hrooms : r.cellRooms width t.verbatim with
  | nil =>
    have hcells := hrectangular _ hrow
    rw [hrooms, Table.verbatim, Table.mapTexts, List.length_map, ← hcells] at hlength
    cases hlength
  | cons room rooms =>
    rw [FitsFirstColumn, hrooms, List.headD_cons] at hfits
    have hverbatim : (name :: cells).map String.toList ∈ t.verbatim.rows :=
      List.mem_map_of_mem hrow
    have hcell : (room, name.toList) ∈ (r.cellRooms width t.verbatim).zip
        ((name :: cells).map String.toList) := by
      rw [hrooms]
      exact List.mem_cons_self
    refine hlay.exists_mem_table hverbatim hcell hfits.room_pos ?_ hfits.width_le
    rw [hlay.wrap_eq hfits]
    exact List.mem_singleton_self _

/-- An issue is one of the lines of the notes. -/
theorem mem_splitOn_notes {insights : Insights} {issue : String}
    (hissue : issue ∈ insights.potentialIssues) (hfeed : '\n' ∉ ("• " ++ issue).toList) :
    ("• " ++ issue).toList ∈ PathText.splitOn '\n' ("\n".intercalate (notes insights)).toList := by
  have hnote : ("• " ++ issue).toList ∈ (notes insights).map String.toList :=
    List.mem_map_of_mem (List.mem_append_left _ (List.mem_map_of_mem hissue))
  rw [String.toList_intercalate]
  exact PathText.mem_splitOn_intercalate hnote hfeed

/-- **What a report shows**: on a renderer that reads markup and lays texts out, if nothing in the
texts of an analysis says how it is shown, the report on the analysis can be printed; and if its
names have room, each of them stands in a line of it, character for character.  This is so for any
width of the console. -/
theorem print_report (hread : r.ReadsMarkup) (hlay : r.LaysOut) (width : Nat)
    (h : ∀ text ∈ a.printedTexts, Markup.IsInert r.emoji text.toList) :
    (print a.report r width).fault = none ∧
      (a.NamesFit r width → ∀ name ∈ a.shownNames,
        ∃ line ∈ (print a.report r width).lines, name.toList <:+: line.toList) := by
  have hinert := isInert_of_printedTexts h
  obtain ⟨hfault, hlines⟩ := @print_of_ok r width _ fun b hb =>
    exists_shown_of_mem_report hread hinert hb
  -- What stands in a line of a block stands in a line of the report.
  have hshown : ∀ b ∈ a.report, ∀ text, b.shown r.plain = .ok text → ∀ cs : List Char,
      (∃ line ∈ r.lines width text, cs <:+: line) →
        ∃ line ∈ (print a.report r width).lines, cs <:+: line.toList := by
    rintro b hb text htext cs ⟨line, hline, hcs⟩
    exact ⟨_, hlines b hb text htext line hline, by rw [String.toList_ofList]; exact hcs⟩
  refine ⟨hfault, fun hfit name hname => ?_⟩
  simp only [shownNames, List.mem_append, List.mem_map] at hname
  rcases hname with ((⟨c, hc, rfl⟩ | ⟨f, hf, rfl⟩) | ⟨spot, hspot, rfl⟩) | hissue
  · refine hshown (.table (componentTable a.architecture.components)) ?_ _
      (shown_table hread hinert.components) _ ?_
    · simp [report, mem_shownIf, List.ne_nil_of_mem hc]
    · exact exists_mem_table_of_fits hlay hinert.components.rectangular (List.mem_map_of_mem hc)
        (hfit.components c hc)
  · refine hshown (.table (complexFileTable a.insights.highComplexityFiles)) ?_ _
      (shown_table hread hinert.files) _ ?_
    · simp [report, mem_shownIf, List.ne_nil_of_mem hf]
    · exact exists_mem_table_of_fits hlay hinert.files.rectangular (List.mem_map_of_mem hf)
        (hfit.files f hf)
  · refine hshown (.table (hotspotTable a.insights.hotspots)) ?_ _
      (shown_table hread hinert.hotspots) _ ?_
    · simp [report, mem_shownIf, List.ne_nil_of_mem hspot]
    · exact exists_mem_table_of_fits hlay hinert.hotspots.rectangular (List.mem_map_of_mem hspot)
        (hfit.hotspots spot hspot)
  · refine hshown _ ?_ _ (shown_panel hread hinert.notes) _ ?_
    · simp [report, mem_shownIf, notes, List.ne_nil_of_mem hissue]
    · have hfits := hfit.issues name hissue
      obtain ⟨line, hline, hnote⟩ := hlay.exists_mem_panel hfits.room_pos
        (hlay.mem_wrap (mem_splitOn_notes hissue hfits.noFeed) hfits) hfits.width_le
      refine ⟨line, hline, List.IsInfix.trans ?_ hnote⟩
      rw [String.toList_append]
      exact List.suffix_append _ _ |>.isInfix

end Shown

/-- An analysis of which nothing but the names that a report shows is known. -/
def naming (components files hotspots issues : List String) : Analysis :=
  { (default : Analysis) with
    architecture := { (default : Architecture) with
      components := components.map fun name => { (default : Component) with name } }
    insights := { (default : Insights) with
      highComplexityFiles := files.map fun path => ⟨path, 30⟩
      hotspots := hotspots.map fun path => ⟨path, 4⟩
      potentialIssues := issues } }

/-- A bracket before a capital letter begins no tag. -/
theorem print_report_capital :
    let a := naming ["app/[I]"] ["app/a.js"] ["app/a.js"] ["app → lib → app"]
    (print a.report .standard 80).fault = none ∧
      ∀ name ∈ a.shownNames,
        ∃ line ∈ (print a.report .standard 80).lines, name.toList <:+: line.toList := by
  intro a
  have hinert : ∀ text ∈ a.printedTexts, Markup.IsInert Renderer.standard.emoji text.toList := by
    decide +kernel
  have hfit : a.NamesFit .standard 80 :=
    ⟨by decide +kernel, by decide +kernel, by decide +kernel, by decide +kernel⟩
  have hprinted := print_report Renderer.standard_readsMarkup Renderer.standard_laysOut 80 hinert
  exact ⟨hprinted.1, hprinted.2 hfit⟩

section TagLike

variable {r : Renderer}

theorem plain_ordinary (hread : r.ReadsMarkup) {text : String} (h : IsOrdinary text.toList) :
    r.plain text = .ok text.toList :=
  hread.plain_inert h.isInert

theorem isBare_app : Markup.IsBare r.emoji "app/".toList :=
  (by decide +kernel : Markup.IsBare (fun _ => some []) "app/".toList).of_no_code

theorem plain_closing (hread : r.ReadsMarkup) :
    r.plain "app/[/id]" = .error (.unmatched "[/id]" 4) := by
  have hspelt : "app/[/id]"
      = String.ofList ("app/".toList ++ (Markup.tag ('/' :: "id".toList) ++ [])) := by
    decide +kernel
  rw [hspelt, hread.plain_unmatched (by decide +kernel) isBare_app Markup.isInert_nil]
  decide +kernel

theorem plain_opening (hread : r.ReadsMarkup) : r.plain "app/[id]" = .ok "app/".toList := by
  have hspelt : "app/[id]"
      = String.ofList ("app/".toList ++ (Markup.tag "id".toList ++ [])) := by
    decide +kernel
  rw [hspelt, hread.plain_begun (by decide +kernel) isBare_app Markup.isInert_nil,
    List.append_nil]

end TagLike

/-- A name that looks like the end of a style makes the printing fail although it has room, and of
one that looks like the beginning of a style only the rest is put into the table.  This is so on
every renderer that reads markup. -/
theorem tagLikeNames_lost :
    let closing := naming ["app/[/id]"] [] [] []
    let opening := naming ["app/[id]"] [] [] []
    (closing.NamesFit .standard 80 ∧ opening.NamesFit .standard 80) ∧
    ∀ r : Renderer, r.ReadsMarkup →
      (∀ width, (print closing.report r width).fault = some (.unmatched "[/id]" 4)) ∧
      ((componentTable opening.architecture.components).shown r.plain).map
        (·.rows.map (·.head?)) = .ok [some "app/".toList] := by
  intro closing opening
  have hclosing : closing.NamesFit .standard 80 :=
    ⟨by decide +kernel, by decide +kernel, by decide +kernel, by decide +kernel⟩
  have hopening : opening.NamesFit .standard 80 :=
    ⟨by decide +kernel, by decide +kernel, by decide +kernel, by decide +kernel⟩
  refine ⟨⟨hclosing, hopening⟩, fun r hread => ⟨fun width => ?_, ?_⟩⟩
  · -- The first table is printed, and the second one has the fault.
    have hfixed : ∀ text ∈ closing.printedTexts.take 4, IsOrdinary text.toList := by decide +kernel
    have hsummary : closing.summary.IsInert r.emoji :=
      isInert_summary (hfixed _ (by decide +kernel)).isInert (hfixed _ (by decide +kernel)).isInert
        (hfixed _ (by decide +kernel)).isInert (hfixed _ (by decide +kernel)).isInert
    have hheading : IsOrdinary "Component".toList := by decide +kernel
    have hfault : Block.shown r.plain (.table (componentTable closing.architecture.components))
        = .error (.unmatched "[/id]" 4) := by
      rw [Block.shown,
        Table.shown_eq_error rfl rfl (plain_ordinary hread hheading) (plain_closing hread)]
      rfl
    have hreport : closing.report = .table closing.summary ::
        .table (componentTable closing.architecture.components) ::
          [.text (learningLine closing.insights.learningPath)] := rfl
    rw [hreport, print, shown_table hread hsummary]
    dsimp only
    rw [print, hfault]
  · have htexts : ∀ text, text = "app/[id]" ∨ IsOrdinary text.toList → r.plain text
        = .ok (if text = "app/[id]" then "app/".toList else text.toList) := by
      rintro text (rfl | htext)
      · rw [if_pos rfl, plain_opening hread]
      · have hne : text ≠ "app/[id]" := by
          rintro rfl
          exact absurd htext (by decide +kernel)
        rw [if_neg hne, plain_ordinary hread htext]
    have hshown : (componentTable opening.architecture.components).ShownAs r.plain
        fun text => if text = "app/[id]" then "app/".toList else text.toList := by
      refine ⟨htexts _ (by decide +kernel), fun heading hmem => htexts heading ?_,
        by decide +kernel, fun row hrow cell hcell => htexts cell ?_⟩
      · revert heading
        decide +kernel
      · revert row cell
        decide +kernel
    rw [hshown.shown_eq]
    rfl

end Analysis

end CodeAtlas
