import CodeAtlas.Analysis
import CodeAtlas.Console.Block
import CodeAtlas.Number.Decimal

/-!
# Reports

What is printed about an analysis: figures, components, files that stand out, what may be wrong, and
how long it takes to learn the code.
-/

namespace CodeAtlas.Analysis

open Console

/-- Texts separated by commas, or a dash if there are none. -/
def listed (xs : List String) : String :=
  if xs.isEmpty then "-" else ", ".intercalate xs

/-- How many files are written in each language, by language. -/
def languageCounts (languages : List (String × Int)) : String :=
  listed ((languages.mergeSort fun a b => a.1 ≤ b.1).map fun (language, n) =>
    language ++ ": " ++ toString n)

/-- The table with the figures about all files. -/
def summary (a : Analysis) : Table :=
  { title := "Summary"
    headings := ["Metric", "Value"]
    rows := [
      ["Files", toString a.metrics.totalFiles],
      ["Lines", toString a.metrics.totalLines],
      ["Languages", languageCounts a.metrics.languages],
      ["Average complexity", Decimal.fixed 2 a.metrics.averageComplexity],
      ["Max complexity", toString a.metrics.maxComplexity],
      ["Maintainability index", Decimal.fixed 1 a.metrics.maintainabilityIndex],
      ["Technical debt", Decimal.fixed 1 a.metrics.technicalDebt],
      ["Architectural style", a.insights.architecturalStyle],
      ["Code quality", a.insights.codeQuality],
      ["Complexity", a.insights.complexityDistribution]] }

/-- The table of the components. -/
def componentTable (components : List Component) : Table :=
  { title := "Components"
    headings := ["Component", "Type", "Files", "Complexity", "Dependents"]
    rows := components.map fun c =>
      [c.name, c.type.name, toString c.files.length, toString c.complexity, listed c.dependents] }

/-- The table of the most complex files. -/
def complexFileTable (files : List ComplexFile) : Table :=
  { title := "High Complexity Files"
    headings := ["File", "Complexity"]
    rows := files.map fun f => [f.path, toString f.complexity] }

/-- The table of the files changed most often. -/
def hotspotTable (hotspots : List Hotspot) : Table :=
  { title := "Hotspots"
    headings := ["File", "Commits"]
    rows := hotspots.map fun h => [h.path, toString h.commitCount] }

/-- What may be wrong and what to do about it, one note a line. -/
def notes (insights : Insights) : List String :=
  insights.potentialIssues.map ("• " ++ ·) ++ insights.recommendations.map ("→ " ++ ·)

/-- The line about the way to learn the code. -/
def learningLine (p : LearningPath) : String :=
  "[subtitle]Learning path:[/subtitle] " ++ p.difficulty ++ " (~" ++ toString p.estimatedHours ++
    "h, " ++ toString p.modules.length ++ " modules)"

/-- The block, if there is something to show in it. -/
def shownIf (present : Bool) (block : Block) : List Block := if present then [block] else []

/-- The report on an analysis; tables and notes that would be empty are left out. -/
def report (a : Analysis) : List Block :=
  let components := a.architecture.components
  let insights := a.insights
  let notes := notes insights
  [.table a.summary]
    ++ shownIf (!components.isEmpty) (.table (componentTable components))
    ++ shownIf (!insights.highComplexityFiles.isEmpty)
      (.table (complexFileTable insights.highComplexityFiles))
    ++ shownIf (!insights.hotspots.isEmpty) (.table (hotspotTable insights.hotspots))
    ++ shownIf (!notes.isEmpty)
      (.panel "[bold]Issues & Recommendations[/bold]" ("\n".intercalate notes))
    ++ [.text (learningLine insights.learningPath)]

end CodeAtlas.Analysis
