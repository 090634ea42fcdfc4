import CodeAtlas.Insight.Basic
import CodeAtlas.Timestamp

/-!
# The analysis of a repository

What is learnt about a repository as a whole: its files, how they form components, figures about
them and what follows from these.
-/

namespace CodeAtlas

/-- The analysis of a repository. -/
structure Analysis where
  repository : String
  files : List FileRecord
  architecture : Architecture
  metrics : Metrics
  insights : Insights
  timestamp : Timestamp
deriving DecidableEq, Inhabited

namespace Analysis

/-- The analysis of a repository with the given files. -/
def ofFiles (repository : String) (detectors : List Detector) (threshold : Int)
    (files : List FileRecord) (timestamp : Timestamp) : Except ScoreError Analysis := do
  let architecture := Architecture.ofFiles detectors files
  let metrics ← Metrics.ofFiles threshold files
  let insights := Insights.ofFiles threshold files architecture metrics
  return { repository, files, architecture, metrics, insights, timestamp }

end Analysis

end CodeAtlas
