import CodeAtlas.Complexity.Formula
import CodeAtlas.FileSystem.Entry

/-!
# Failures

What may go wrong while a repository is analysed, with the wording of each.  A file that cannot be
read or is no program is left out of the analysis; every other failure ends it, and what it was
caused by is kept.
-/

namespace CodeAtlas

/-- A kind of failures of another program or of the system: its name, and the names of kinds that it
is a special case of. -/
structure FailureKind where
  name : String
  generalizations : List String
deriving DecidableEq, Inhabited

namespace FailureKind

/-- A kind that is known by its name. -/
def named (name : String) : FailureKind := ⟨name, []⟩

instance : Coe String FailureKind := ⟨named⟩

/-- General kinds, each with the names of those that are known to be special cases of it. -/
def families : List (String × List String) := [
  ("GitError", [
    "InvalidGitRepositoryError", "WorkTreeRepositoryUnsupported", "NoSuchPathError",
    "UnsafeProtocolError", "UnsafeOptionError", "CommandError", "GitCommandError",
    "GitCommandNotFound", "CheckoutError", "CacheError", "UnmergedEntriesError",
    "HookExecutionError", "RepositoryDirtyError"]),
  ("OSError", [
    "BlockingIOError", "ChildProcessError", "ConnectionError", "BrokenPipeError",
    "ConnectionAbortedError", "ConnectionRefusedError", "ConnectionResetError", "FileExistsError",
    "FileNotFoundError", "InterruptedError", "IsADirectoryError", "NotADirectoryError",
    "PermissionError", "ProcessLookupError", "TimeoutError", "NoSuchPathError",
    "UnsupportedOperation", "SSLError", "gaierror", "herror", "URLError", "HTTPError"]),
  ("ValueError", [
    "UnicodeError", "UnicodeDecodeError", "UnicodeEncodeError", "UnicodeTranslateError",
    "UnsupportedOperation", "JSONDecodeError"])]

/-- The general kinds that a kind of some name is known to be a special case of. -/
def knownGeneralizations (name : String) : List String :=
  (families.filter fun family => family.2.contains name).map (·.1)

/-- The names of the kinds that failures of a kind belong to. -/
def memberships (k : FailureKind) : List String :=
  (k.name :: k.generalizations).flatMap fun name => name :: knownGeneralizations name

/-- Failures of the kind belong to the kind of the given name. -/
def isA (k : FailureKind) (name : String) : Bool := k.memberships.contains name

/-- A special case of a kind. -/
def specialize (k : FailureKind) (name : String) : FailureKind :=
  ⟨name, k.name :: k.generalizations⟩

/-- What is a special case belongs to whatever the general case belongs to. -/
theorem isA_specialize {k : FailureKind} {general : String} (h : k.isA general = true)
    (name : String) : (k.specialize name).isA general = true := by
  rw [isA, List.contains_iff_mem] at h ⊢
  rw [memberships, specialize, List.flatMap_cons]
  exact List.mem_append_right _ h

end FailureKind

/-- A failure in some part of an analysis. -/
inductive Failure where
  /-- A failure that is known by its wording alone. -/
  | general (message : String)
  /-- A repository cannot be had. -/
  | fetch (identifier reason : String) (cause : Option Failure)
  /-- A file cannot be read. -/
  | fileRead (path reason : String)
  /-- A file is no program of its dialect. -/
  | parse (path reason : String) (line : Option Int)
  /-- Components, metrics or insights cannot be found for files that were analysed. -/
  | aggregation (activity : String) (cause : Failure)
  /-- A stage was requested out of order. -/
  | stageOrder (current requested : String)
  /-- The analysis was given up on request. -/
  | cancelled (message : String)
  /-- A score is too large. -/
  | score (error : ScoreError)
  /-- A path cannot be used. -/
  | file (error : FileError) (path : String)
  /-- A key is missing. -/
  | missingKey (key : String)
  /-- A failure of another program or of the system, by its kind and wording. -/
  | foreign (kind : FailureKind) (message : String)
deriving Inhabited

namespace Failure

/-- The wording of a failure to fetch a repository. -/
def fetchMessage (identifier reason : String) : String :=
  "Failed to fetch repository '" ++ identifier ++ "': " ++ reason

/-- The wording of a failure to read a file. -/
def fileReadMessage (path reason : String) : String := "Failed to read " ++ path ++ ": " ++ reason

/-- The wording of a failure to parse a file; a line of zero is none. -/
def parseMessage (path reason : String) (line : Option Int) : String :=
  let place := match line with
    | none | some 0 => path
    | some n => path ++ ":" ++ toString n
  "Failed to parse " ++ place ++ ": " ++ reason

/-- The wording for a stage that was requested out of order. -/
def stageOrderMessage (current requested : String) : String :=
  "Invalid stage transition: " ++ current ++ " -> " ++ requested

/-- The wording of a failure. -/
def message : Failure → String
  | general m | cancelled m | foreign _ m => m
  | fetch identifier reason _ => fetchMessage identifier reason
  | fileRead path reason => fileReadMessage path reason
  | parse path reason line => parseMessage path reason line
  | aggregation activity cause => activity ++ " failed: " ++ cause.message
  | stageOrder current requested => stageOrderMessage current requested
  | score e => e.message
  | file e path => e.message path
  | missingKey key => Text.quoted key

/-- The name of the kind of a failure, as messages give it. -/
def kind : Failure → String
  | general _ => "NavviError"
  | fetch .. => "FetchError"
  | fileRead .. => "FileReadError"
  | parse .. => "ParseError"
  | aggregation .. => "InternalAggregationError"
  | stageOrder .. => "InvalidStageTransitionError"
  | cancelled _ => "AnalysisCancelledError"
  | score _ => "OverflowError"
  | file e _ => e.kind
  | missingKey _ => "KeyError"
  | foreign k _ => k.name

/-- What a failure was caused by. -/
def cause? : Failure → Option Failure
  | fetch _ _ cause => cause
  | aggregation _ cause => some cause
  | _ => none

/-- A failure and what it was caused by, the latter one after the other. -/
def chain : Failure → List Failure
  | fetch identifier reason (some cause) => fetch identifier reason (some cause) :: cause.chain
  | aggregation activity cause => aggregation activity cause :: cause.chain
  | f => [f]

/-- The failure concerns one file and names it. -/
def concernsFile : Failure → Bool
  | fileRead .. | parse .. => true
  | _ => false

end Failure

/-- The failure of the analysis of a repository, with the stage in which it happened. -/
structure AnalysisFailure where
  repository : String
  stage : String
  cause : Failure
deriving Inhabited

/-- The wording of a failed analysis of which the wording of the cause is known. -/
def AnalysisFailure.wording (repository stage cause : String) : String :=
  "Analysis of '" ++ repository ++ "' failed during " ++ stage ++ ": " ++ cause

/-- The wording of a failed analysis. -/
def AnalysisFailure.message (f : AnalysisFailure) : String :=
  wording f.repository f.stage f.cause.message

end CodeAtlas
