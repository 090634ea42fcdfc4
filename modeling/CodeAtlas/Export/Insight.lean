import CodeAtlas.Insight.Basic
import CodeAtlas.Export.Record

/-!
# Metrics and insights as JSON
-/

namespace CodeAtlas

/-- Metrics as JSON. -/
def Metrics.toJson (m : Metrics) : Json :=
  .obj [("total_files", .int m.totalFiles), ("total_lines", .int m.totalLines),
    ("languages", .obj (m.languages.map fun (name, n) => (name, .int n))),
    ("average_complexity", .float m.averageComplexity), ("max_complexity", .int m.maxComplexity),
    ("maintainability_index", .float m.maintainabilityIndex),
    ("technical_debt", .float m.technicalDebt)]

/-- A file that changes often as JSON. -/
def Hotspot.toJson (h : Hotspot) : Json :=
  .obj [("path", .str h.path), ("commit_count", .int h.commitCount)]

/-- A complex file as JSON. -/
def ComplexFile.toJson (f : ComplexFile) : Json :=
  .obj [("path", .str f.path), ("complexity", .int f.complexity)]

/-- A file with its exported names as JSON. -/
def EntryPoint.toJson (e : EntryPoint) : Json :=
  .obj [("path", .str e.path), ("exports", .strings e.exports), ("truncated", .bool e.truncated)]

/-- A file that matters as JSON. -/
def CriticalPath.toJson (p : CriticalPath) : Json :=
  .obj [("name", .str p.name), ("files", .strings p.files), ("importance", .int p.importance),
    ("complexity", .int p.complexity), ("description", .str p.description)]

/-- A step on the way to learn the code as JSON. -/
def LearningModule.toJson (m : LearningModule) : Json :=
  .obj [("title", .str m.title), ("description", .str m.description), ("files", .strings m.files),
    ("concepts", .strings m.concepts), ("estimated_minutes", .int m.estimatedMinutes)]

/-- A way to learn the code as JSON. -/
def LearningPath.toJson (p : LearningPath) : Json :=
  .obj [("difficulty", .str p.difficulty), ("estimated_hours", .int p.estimatedHours),
    ("modules", .arr (p.modules.map (·.toJson))), ("prerequisites", .strings p.prerequisites)]

/-- Insights as JSON. -/
def Insights.toJson (i : Insights) : Json :=
  .obj [("architectural_style", .str i.architecturalStyle), ("code_quality", .str i.codeQuality),
    ("complexity_distribution", .str i.complexityDistribution),
    ("potential_issues", .strings i.potentialIssues),
    ("recommendations", .strings i.recommendations),
    ("hotspots", .arr (i.hotspots.map (·.toJson))),
    ("high_complexity_files", .arr (i.highComplexityFiles.map (·.toJson))),
    ("entry_points", .arr (i.entryPoints.map (·.toJson))),
    ("critical_paths", .arr (i.criticalPaths.map (·.toJson))),
    ("learning_path", i.learningPath.toJson)]

end CodeAtlas
