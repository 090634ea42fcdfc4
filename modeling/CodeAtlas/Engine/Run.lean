import CodeAtlas.Analysis
import CodeAtlas.Progress
import CodeAtlas.Scan

/-!
# The state of a run

What has happened so far while a repository is analysed, and the steps that a run is put together
from.  A step goes on from a state; it succeeds or fails, and either way it leaves a state behind.
-/

namespace CodeAtlas

/-- How serious a notice is. -/
inductive Severity where
  | warning
  | error
deriving DecidableEq, Inhabited

/-- The word for a severity. -/
def Severity.name : Severity → String
  | warning => "WARNING"
  | error => "ERROR"

/-- Something that a run makes known about itself. -/
structure Notice where
  severity : Severity
  message : String
deriving DecidableEq, Inhabited

/-- The state of a run: how far it has come, how often it has looked whether to give up, which
checkout it uses, which checkouts it gave back, what it put into the store, and its notices. -/
structure RunState where
  tracker : StageTracker
  polls : Nat
  checkout : Option Path
  released : List Path
  stored : List (String × Analysis)
  notices : List Notice
deriving Inhabited

namespace RunState

/-- Nothing has happened yet. -/
def start : RunState := ⟨.start, 0, none, [], [], []⟩

/-- The stage entered last; the first one if there is none. -/
def stage (s : RunState) : Stage := s.tracker.current.getD .cloning

/-- Adds a notice. -/
def notice (s : RunState) (severity : Severity) (message : String) : RunState :=
  { s with notices := s.notices ++ [⟨severity, message⟩] }

/-- Gives a checkout back, if there is one. -/
def release (s : RunState) : RunState :=
  match s.checkout with
  | some p => { s with released := s.released ++ [p] }
  | none => s

/-- Puts an analysis into the store. -/
def put (s : RunState) (key : String) (a : Analysis) : RunState :=
  { s with stored := s.stored ++ [(key, a)] }

end RunState

/-- A step of a run. -/
abbrev RunStep := ExceptT Failure (StateM RunState)

namespace RunStep

/-- Changes the state. -/
def update (f : RunState → RunState) : RunStep Unit := modify f

/-- Makes a warning known. -/
def warn (message : String) : RunStep Unit := update (·.notice .warning message)

/-- A result that has been had elsewhere. -/
def ofResult {α : Type} : Except Failure α → RunStep α
  | .ok a => pure a
  | .error e => throw e

end RunStep

end CodeAtlas
