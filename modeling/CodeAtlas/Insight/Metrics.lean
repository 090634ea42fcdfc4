import CodeAtlas.Complexity.Formula

/-!
# Metrics of a repository
-/

namespace CodeAtlas

/-- Figures about all files of a repository. -/
structure Metrics where
  totalFiles : Int
  totalLines : Int
  languages : List (String × Int)
  averageComplexity : Double
  maxComplexity : Int
  maintainabilityIndex : Double
  technicalDebt : Double
deriving DecidableEq, Inhabited

namespace Metrics

/-- The metrics of a repository without files. -/
def empty : Metrics := ⟨0, 0, [], .finite .zero, 0, Score.best, .finite .zero⟩

/-- How often each element occurs, in the order in which they first do. -/
def histogram (xs : List String) : List (String × Int) :=
  xs.eraseDups.map fun x => (x, (xs.count x : Int))

/-- The complexities of files. -/
def complexities (files : List FileRecord) : List Int := files.map (·.complexity.cyclomatic)

/-- The metrics of files; a file accrues debt above the threshold. -/
def ofFiles (threshold : Int) (files : List FileRecord) : Except ScoreError Metrics := do
  let cs := complexities files
  let total := integerSum cs
  let lines := integerSum (files.map (·.lines))
  let average ←
    if cs.isEmpty then .ok (.finite .zero)
    else match Double.quotient? total cs.length with
      | some x => .ok x
      | none => .error .quotientTooLarge
  return { totalFiles := files.length
           totalLines := lines
           languages := histogram (files.map (·.language))
           averageComplexity := average
           maxComplexity := cs.max?.getD 0
           maintainabilityIndex := ← Score.maintainability total lines
           technicalDebt := ← Score.technicalDebt threshold cs }

end Metrics

end CodeAtlas
