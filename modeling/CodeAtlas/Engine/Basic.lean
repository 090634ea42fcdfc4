import CodeAtlas.Engine.Run
import CodeAtlas.Repository.History

/-!
# Analysing a repository

A run fetches a repository, scans it, parses its files, groups them into components, measures them
and draws conclusions.  What does each of these is a collaborator, which may fail; a file that
cannot be analysed is left out, and a missing history is no obstacle, but every other failure ends
the run.  A run can be given up from outside; it looks for that at certain points only.
-/

namespace CodeAtlas

/-- What a run relies on. -/
structure Collaborators where
  /-- Gets a local directory for an identifier. -/
  fetch : String → Except Failure Path
  /-- Finds the source files below a directory. -/
  scan : Path → Except Failure Scan
  /-- Analyses a file of a repository; nothing comes of a file that is written in no dialect. -/
  analyzeFile : (file root : Path) → Except Failure (Option FileRecord)
  /-- The order in which files are finished that are analysed side by side. -/
  completion : List Path → List Path
  /-- Counts the commits by path, if that is possible at all. -/
  history : Option (Path → Except Failure CommitCounts.Counts)
  /-- Groups files into components. -/
  group : List FileRecord → Except Failure Architecture
  /-- Measures files. -/
  measure : List FileRecord → Except Failure Metrics
  /-- Draws conclusions. -/
  conclude : List FileRecord → Architecture → Metrics → Except Failure Insights
  /-- Receives the latest event of a run, and may fail. -/
  receive : RunState → Except Failure Unit
  /-- The run is to be given up. -/
  isCancelled : RunState → Bool
  /-- The moment of the analysis. -/
  now : Timestamp

/-- How a run goes about its work. -/
structure RunOptions where
  maxWorkers : Int
  usesHistory : Bool
  keepsResult : Bool
deriving DecidableEq, Inhabited

namespace Engine

open RunStep

variable (c : Collaborators) (options : RunOptions)

/-- Hands the latest event on. -/
def deliver : RunStep Unit := do ofResult (c.receive (← get))

/-- Enters a stage. -/
def advance (stage : Stage) (percent : Nat) (message : String) : RunStep Unit := do
  let tracker ← ofResult ((← get).tracker.advance stage.name (.ofNat percent) message)
  update fun s => { s with tracker }
  deliver c

/-- Reports a step within the current stage. -/
def report (percent : Percent) (message : String) (file : Path) : RunStep Unit := do
  update fun s => { s with tracker := s.tracker.report percent message (some file.toText) }
  deliver c

/-- The wording for a run that was given up. -/
def cancelledMessage : String := "Analysis cancelled"

/-- Looks whether to give up. -/
def poll : RunStep Unit := do
  let cancelled := c.isCancelled (← get)
  update fun s => { s with polls := s.polls + 1 }
  if cancelled then throw (.cancelled cancelledMessage)

/-! ### Files -/

/-- The warning for a file that is left out because of a failure. -/
def skipMessage (file : Path) (e : Failure) : String :=
  if e.concernsFile then "Skipping file: " ++ e.message
  else "Skipping file " ++ file.toText ++ ": unexpected " ++ e.kind ++ ": " ++ e.message

/-- Analyses a file, or warns that it is left out. -/
def analyzeOne (root file : Path) : RunStep (Option FileRecord) :=
  match c.analyzeFile file root with
  | .ok r => pure r
  | .error e => do
    warn (skipMessage file e)
    return none

/-- Analyses files one after the other; `done` of them have been before. -/
def analyzeEach (root : Path) (total : Nat) : Nat → List Path → RunStep (List FileRecord)
  | _, [] => return []
  | done, file :: rest => do
    poll c
    let found ← analyzeOne c root file
    report c (.share 10 60 (done + 1) total)
      ("Analyzed " ++ toString (done + 1) ++ "/" ++ toString total ++ " files") file
    return found.toList ++ (← analyzeEach root total (done + 1) rest)

/-- Files are analysed side by side. -/
def inParallel (total : Nat) : Bool := 1 < options.maxWorkers && 2 ≤ total

/-- The files in the order in which their analysis is finished. -/
def finished (files : List Path) : List Path :=
  if inParallel options files.length then c.completion files else files

/-- Analyses files and puts their records in the order of their paths. -/
def analyzeFiles (root : Path) (files : List Path) : RunStep (List FileRecord) := do
  let total := files.length
  let found ← analyzeEach c root total 0 (finished c options files)
  let skipped := total - found.length
  if skipped ≠ 0 then
    warn ("Skipped " ++ toString skipped ++ " of " ++ toString total
      ++ " files that could not be analyzed")
  return Architecture.sortFiles found

/-- Sets the commit counts of files. -/
def withCounts (counts : CommitCounts.Counts) (files : List FileRecord) : List FileRecord :=
  files.map fun f => { f with commitCount := some (CommitCounts.of counts f.path) }

/-- Sets the commit counts of files, if they can be had and are wanted. -/
def applyHistory (root : Path) (files : List FileRecord) : RunStep (List FileRecord) :=
  match c.history with
  | none => return files
  | some history =>
    if !options.usesHistory then return files
    else match history root with
      | .ok counts => return withCounts counts files
      | .error e => do
        warn ("Commit history unavailable for " ++ root.toText ++ ": " ++ e.message)
        return files

/-! ### The run -/

/-- A result, a failure of which is one of an activity as a whole. -/
def aggregated {α : Type} (activity : String) (r : Except Failure α) : RunStep α :=
  match r with
  | .ok a => pure a
  | .error e => throw (.aggregation activity e)

/-- The course of a run up to its analysis. -/
def course (identifier : String) : RunStep Analysis := do
  advance c .cloning 0 ("Fetching " ++ identifier)
  poll c
  let root ← ofResult (c.fetch identifier)
  update fun s => { s with checkout := some root }
  poll c
  advance c .parsing 10 "Scanning source files"
  let scan ← ofResult (c.scan root)
  scan.warnings.forM fun w => warn w.message
  let files ← analyzeFiles c options root scan.files
  let files ← applyHistory c options root files
  poll c
  advance c .analyzing 70 "Grouping components and computing metrics"
  let architecture ← aggregated "Aggregation" (c.group files)
  let metrics ← aggregated "Aggregation" (c.measure files)
  poll c
  advance c .generating 90 "Generating insights"
  let insights ← aggregated "Insight generation" (c.conclude files architecture metrics)
  advance c .complete 100 "Analysis complete"
  return { repository := identifier, files, architecture, metrics, insights, timestamp := c.now }

/-- How a run ends. -/
inductive Outcome where
  | completed (analysis : Analysis)
  | cancelled (message : String)
  | failed (failure : AnalysisFailure)
deriving Inhabited

/-- Analyses a repository.  The checkout is given back however the run ends, and only an analysis
that is complete is put into the store. -/
def analyze (identifier : String) : Outcome × RunState :=
  let (result, s) := (course c options identifier).run .start
  match result with
  | .ok a =>
    let s := s.release
    (.completed a, if options.keepsResult then s.put identifier a else s)
  | .error (.cancelled m) => (.cancelled m, s.release)
  | .error e =>
    let s := s.notice .error
      ("Analysis of " ++ identifier ++ " failed during " ++ s.stage.name ++ ": " ++ e.message)
    (.failed ⟨identifier, s.stage.name, e⟩, s.release)

end Engine

end CodeAtlas
