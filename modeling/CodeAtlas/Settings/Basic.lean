import CodeAtlas.Repository.Checkout
import CodeAtlas.Scan
import CodeAtlas.Store

/-!
# Settings

What can be chosen about analyses, repositories, the store and the log.
-/

namespace CodeAtlas

/-- Which files are analysed, from which complexity on a file accrues debt, and how many files are
analysed side by side. -/
structure AnalysisSettings where
  extensions : List String
  ignorePatterns : List String
  maxFileSize : Int
  complexityThreshold : Int
  maxWorkers : Int
deriving DecidableEq, Inhabited

/-- How repositories are fetched and whether their history is used. -/
structure GitSettings where
  cloneDepth : Option Int
  token : Option String
  tempDirectory : Option String
  usesHistory : Bool
deriving DecidableEq, Inhabited

/-- How many analyses are kept and for how long. -/
structure CacheSettings where
  maxEntries : Int
  timeToLive : Option Double
deriving DecidableEq, Inhabited

/-- What is logged and where to. -/
structure LogSettings where
  level : String
  file : Option String
deriving DecidableEq, Inhabited

/-- All settings. -/
structure Settings where
  analysis : AnalysisSettings
  git : GitSettings
  cache : CacheSettings
  log : LogSettings
deriving DecidableEq, Inhabited

/-- What a scan looks for; extensions are compared in lower case. -/
def AnalysisSettings.scan (s : AnalysisSettings) : ScanSettings :=
  ⟨s.extensions.map Text.lower, s.ignorePatterns, s.maxFileSize⟩

namespace Settings

/-- What is chosen unless something else is. -/
def standard : Settings :=
  { analysis :=
      ⟨ScanSettings.standard.extensions, ScanSettings.standard.ignorePatterns,
        ScanSettings.standard.maxFileSize, 10, 1⟩
    git := ⟨none, none, none, true⟩
    cache := ⟨Store.standardCapacity, some (Double.ofInt Store.standardTimeToLive)⟩
    log := ⟨"INFO", none⟩ }

/-- The directory below which checkouts are made, if one is chosen. -/
def tempRoot (home : Path) (s : Settings) : Except Failure (Option Path) :=
  match s.git.tempDirectory with
  | none => .ok none
  | some "" => .ok none
  | some text => (LocalFetcher.expandHome home (.ofText text)).map some

end Settings

end CodeAtlas
