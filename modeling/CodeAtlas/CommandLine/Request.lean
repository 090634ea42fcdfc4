import CodeAtlas.CommandLine.Option
import CodeAtlas.Number.Integer
import CodeAtlas.Settings.Basic

/-!
# What a command line asks for

The options of the program come first, then a command with options and operands of its own.
-/

namespace CodeAtlas

namespace CommandLine

/-- The options of the program. -/
inductive ProgramOption where
  | help
  | version
  | logLevel
deriving DecidableEq, Inhabited

/-- How the options of the program are written. -/
def programForms : List (OptionForm ProgramOption) :=
  [⟨.help, ["--help"], false⟩, ⟨.version, ["--version", "-v"], false⟩,
    ⟨.logLevel, ["--log-level"], true⟩]

/-- The command that analyses a repository. -/
def analysisCommand : String := "analyze"

/-- What the program is asked for. -/
inductive ProgramRequest where
  | help
  | version
  /-- No command is given. -/
  | overview (logLevel : Option String)
  /-- A repository is to be analysed, as further words say. -/
  | analysis (logLevel : Option String) (words : List String)
deriving DecidableEq, Inhabited

/-- What the words of a command line ask the program for. -/
def ProgramRequest.ofWords (words : List String) : Except UsageError ProgramRequest := do
  let a ← readArguments programForms false words
  let logLevel := (a.value? .logLevel).filter (· != "")
  if a.has .help then return help
  match a.operands with
  | [] => return if a.has .version then version else overview logLevel
  | command :: words =>
    if command != analysisCommand then throw (.unknownCommand command)
    return if a.has .version then version else analysis logLevel words

/-- The options of the command that analyses a repository. -/
inductive AnalysisOption where
  | help
  | json
  | threshold
  | workers
  | history (isUsed : Bool)
deriving DecidableEq, Inhabited

/-- How the options of the command that analyses a repository are written. -/
def analysisForms : List (OptionForm AnalysisOption) :=
  [⟨.help, ["--help"], false⟩, ⟨.json, ["--json", "-j"], true⟩,
    ⟨.threshold, ["--threshold", "-t"], true⟩, ⟨.workers, ["--workers", "-w"], true⟩,
    ⟨.history true, ["--history"], false⟩, ⟨.history false, ["--no-history"], false⟩]

/-- A request to analyse a repository, with what is chosen otherwise than the settings say. -/
structure AnalysisRequest where
  repository : String
  jsonFile : Option String
  threshold : Option Int
  workers : Option Int
  usesHistory : Bool
deriving DecidableEq, Inhabited

namespace AnalysisRequest

/-- The repository that is analysed if none is named. -/
def standardRepository : String := "."

/-- The value of an option that must be a positive integer. -/
def positive (name : String) : Option String → Except UsageError (Option Int)
  | none => .ok none
  | some text =>
    match Integer.ofText? text with
    | none => .error (.notAnInteger name text)
    | some n => if n < 1 then .error (.tooSmall name text) else .ok (some n)

/-- Whether the history is to be used, according to the option given last. -/
def historyChoice (a : Arguments AnalysisOption) : Bool :=
  (a.options.reverse.findSome? fun (key, _) =>
    match key with
    | .history isUsed => some isUsed
    | _ => none).getD true

/-- The request that words behind the command make; none if they ask for help. -/
def ofWords (words : List String) : Except UsageError (Option AnalysisRequest) := do
  let a ← readArguments analysisForms true words
  if a.has .help then return none
  let threshold ← positive "--threshold" (a.value? .threshold)
  let workers ← positive "--workers" (a.value? .workers)
  let request (repository : String) : AnalysisRequest :=
    { repository, jsonFile := a.value? .json, threshold, workers, usesHistory := historyChoice a }
  match a.operands with
  | [] => return some (request standardRepository)
  | [repository] => return some (request repository)
  | _ :: extra :: _ => throw (.unexpectedOperand extra)

/-- The settings with what the request chooses. -/
def adjust (r : AnalysisRequest) (s : Settings) : Settings :=
  { s with
    analysis := { s.analysis with
      complexityThreshold := r.threshold.getD s.analysis.complexityThreshold
      maxWorkers := r.workers.getD s.analysis.maxWorkers }
    git := { s.git with usesHistory := r.usesHistory && s.git.usesHistory } }

end AnalysisRequest

end CommandLine

end CodeAtlas
