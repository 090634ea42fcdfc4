import CodeAtlas.Analysis
import CodeAtlas.Export.Architecture
import CodeAtlas.Export.Insight
import CodeAtlas.Json.Printer

/-!
# Analyses as JSON
-/

namespace CodeAtlas.Analysis

/-- The members for what an analysis found, without the moment at which it was made. -/
def findings (a : Analysis) : List (String × Json) :=
  [("repository", .str a.repository), ("files", .arr (a.files.map (·.toJson))),
    ("architecture", a.architecture.toJson), ("metrics", a.metrics.toJson),
    ("insights", a.insights.toJson)]

/-- An analysis as JSON. -/
def toJson (a : Analysis) : Json := .obj (a.findings ++ [("timestamp", .str a.timestamp.toText)])

/-- The text of an analysis, with every item on a line of its own if an indentation is given. -/
def toJsonText (indent : Option Nat) (a : Analysis) : String := Json.render indent a.toJson

end CodeAtlas.Analysis
