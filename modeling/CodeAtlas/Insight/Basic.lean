import CodeAtlas.Insight.Metrics
import CodeAtlas.Architecture.Grouping

/-!
# Insights into a repository

A classification of the repository, what may be wrong with it and what to do about it, the files
that stand out, and a way to learn the code.
-/

namespace CodeAtlas

/-- A file with the number of commits that changed it. -/
structure Hotspot where
  path : String
  commitCount : Int
deriving DecidableEq, Inhabited

/-- A file with its complexity. -/
structure ComplexFile where
  path : String
  complexity : Int
deriving DecidableEq, Inhabited

/-- A file with the first names that it exports. -/
structure EntryPoint where
  path : String
  exports : List String
  truncated : Bool
deriving DecidableEq, Inhabited

/-- A file whose understanding matters. -/
structure CriticalPath where
  name : String
  files : List String
  importance : Int
  complexity : Int
  description : String
deriving DecidableEq, Inhabited

/-- One step on the way to learn the code. -/
structure LearningModule where
  title : String
  description : String
  files : List String
  concepts : List String
  estimatedMinutes : Int
deriving DecidableEq, Inhabited

/-- A way to learn the code. -/
structure LearningPath where
  difficulty : String
  estimatedHours : Int
  modules : List LearningModule
  prerequisites : List String
deriving DecidableEq, Inhabited

/-- Insights into a repository. -/
structure Insights where
  architecturalStyle : String
  codeQuality : String
  complexityDistribution : String
  potentialIssues : List String
  recommendations : List String
  hotspots : List Hotspot
  highComplexityFiles : List ComplexFile
  entryPoints : List EntryPoint
  criticalPaths : List CriticalPath
  learningPath : LearningPath
deriving DecidableEq, Inhabited

namespace Insights

/-- Lists of files that stand out have at most this many. -/
def topCount : Nat := 5

/-! ### Classification -/

/-- What the components of a repository make it. -/
def styleOf (types : List ComponentType) : String :=
  let pages := types.contains .page
  let apis := types.contains .api
  if pages && apis && types.contains .service then "Full-Stack Application"
  else if pages && !apis then "Frontend Application"
  else if apis && !pages then "Backend API"
  else "Component Library"

/-- The first number is above the second. -/
def above (x : Double) (n : Int) : Bool := (Double.ofInt n).lt x

/-- The first number is below the second. -/
def below (x : Double) (n : Int) : Bool := x.lt (Double.ofInt n)

/-- The quality of code of the given maintainability. -/
def qualityOf (maintainability : Double) : String :=
  if above maintainability 80 then "Excellent"
  else if above maintainability 60 then "Good"
  else if above maintainability 40 then "Fair"
  else "Needs Improvement"

/-- What an average complexity says. -/
def distributionOf (average : Double) : String :=
  if below average 5 then "Low complexity, easy to maintain"
  else if below average 10 then "Moderate complexity, manageable"
  else "High complexity, consider refactoring"

/-! ### Issues and recommendations -/

/-- The issue that a cycle of components is. -/
def cycleIssue (cycle : List String) : String :=
  "Circular dependency between components: " ++ " -> ".intercalate (cycle ++ cycle.take 1)

/-- The cycles that are reported. -/
def reportedCycles : Int := 10

/-- What may be wrong with a repository. -/
def issuesOf (architecture : Architecture) (metrics : Metrics) : List String :=
  let graph := ComponentGraph.ofArchitecture architecture.components architecture.relationships
  (if above metrics.averageComplexity 10 then
      ["High average complexity - consider breaking down complex functions"] else [])
    ++ (if metrics.maxComplexity > 20 then
      ["Very high complexity in some files - immediate refactoring needed"] else [])
    ++ (if below metrics.maintainabilityIndex 50 then
      ["Low maintainability index - code quality improvements recommended"] else [])
    ++ (graph.findCycles reportedCycles).map cycleIssue

/-- What to do about a repository. -/
def recommendationsFor (metrics : Metrics) : List String :=
  (if above metrics.averageComplexity 10 then
      ["Break down complex functions into smaller, more manageable pieces"] else [])
    ++ (if below metrics.maintainabilityIndex 60 then
      ["Add more comprehensive documentation and comments",
        "Consider implementing unit tests for critical functions"] else [])

/-! ### Files that stand out -/

/-- Files by falling rank, those of one rank by path. -/
def ranked (rank : FileRecord → Int) (files : List FileRecord) : List FileRecord :=
  files.mergeSort fun a b => rank b < rank a || (rank a = rank b && a.path ≤ b.path)

/-- The complexity of a file. -/
def complexityOf (file : FileRecord) : Int := file.complexity.cyclomatic

/-- The number of commits that changed a file, zero if it is not known. -/
def commitsOf (file : FileRecord) : Int := file.commitCount.getD 0

/-- The files changed by at least two commits, most changed first. -/
def hotspotsOf (files : List FileRecord) : List Hotspot :=
  let changed := files.filter fun f => f.commitCount.any (2 ≤ ·)
  ((ranked commitsOf changed).take topCount).map fun f => ⟨f.path, commitsOf f⟩

/-- The files of a complexity above the threshold, most complex first. -/
def highComplexityFilesOf (threshold : Int) (files : List FileRecord) : List ComplexFile :=
  let complex := files.filter fun f => threshold < complexityOf f
  ((ranked complexityOf complex).take topCount).map fun f => ⟨f.path, complexityOf f⟩

/-- The files that export something, with the first three names. -/
def entryPointsOf (files : List FileRecord) : List EntryPoint :=
  (files.filter (!·.exports.isEmpty)).map fun f =>
    let names := f.exports.map (·.name)
    ⟨f.path, names.take 3, 3 < names.length⟩

/-- The most complex files. -/
def criticalPathsOf (files : List FileRecord) : List CriticalPath :=
  ((ranked complexityOf files).take topCount).map fun f =>
    let c := complexityOf f
    ⟨"High Complexity: " ++ PathText.basename f.path, [f.path], min 100 (c * 10), c,
      "File with high cyclomatic complexity (" ++ toString c ++ ")"⟩

/-! ### Learning -/

/-- What one should know beforehand. -/
def prerequisites : List String :=
  ["Basic JavaScript/TypeScript knowledge", "Understanding of React concepts"]

/-- The difficulty of code of the given size and the hours it takes. -/
def difficulty (complexity lines : Int) : String × Int :=
  if complexity > 100 || lines > 5000 then ("advanced", 8)
  else if complexity > 50 || lines > 2000 then ("intermediate", 4)
  else ("beginner", 2)

/-- The steps on the way to learn the code. -/
def learningModules (files : List FileRecord) (architecture : Architecture) :
    List LearningModule :=
  let core := (files.filter fun f => 5 < complexityOf f).map (·.path)
  let overview : LearningModule :=
    ⟨"Architecture Overview",
      "Understand the overall structure and organization of the codebase",
      architecture.components.filterMap (·.files.head?),
      ["Component organization", "Dependency management", "File structure"], 30⟩
  overview :: (if core.isEmpty then [] else
    [⟨"Core Functionality", "Learn about the main business logic and key functions",
      core.take topCount, ["Business logic", "Function complexity", "Code patterns"], 45⟩])

/-- A way to learn the code. -/
def learningPathOf (files : List FileRecord) (architecture : Architecture) : LearningPath :=
  let (word, hours) :=
    difficulty (integerSum (files.map complexityOf)) (integerSum (files.map (·.lines)))
  ⟨word, hours, learningModules files architecture, prerequisites⟩

/-- The insights into a repository without files. -/
def empty : Insights :=
  { architecturalStyle := "Unknown"
    codeQuality := "Unknown"
    complexityDistribution := "No supported files found"
    potentialIssues := ["Repository contains no supported file types"]
    recommendations := ["Add JavaScript, TypeScript, JSX, or TSX files"]
    hotspots := [], highComplexityFiles := [], entryPoints := [], criticalPaths := []
    learningPath := ⟨"beginner", 0, [], prerequisites⟩ }

/-- The insights into a repository. -/
def ofFiles (threshold : Int) (files : List FileRecord) (architecture : Architecture)
    (metrics : Metrics) : Insights :=
  if files.isEmpty then empty
  else
    { architecturalStyle := styleOf (architecture.components.map (·.type))
      codeQuality := qualityOf metrics.maintainabilityIndex
      complexityDistribution := distributionOf metrics.averageComplexity
      potentialIssues := issuesOf architecture metrics
      recommendations := recommendationsFor metrics
      hotspots := hotspotsOf files
      highComplexityFiles := highComplexityFilesOf threshold files
      entryPoints := entryPointsOf files
      criticalPaths := criticalPathsOf files
      learningPath := learningPathOf files architecture }

end Insights

end CodeAtlas
