import CodeAtlas.Failure

/-!
# Commit history

How many commits of a repository changed each of its files.
-/

namespace CodeAtlas

/-- A commit: the paths that it changed, or why they cannot be told. -/
abbrev Commit := Except Failure (List String)

/-- What is found where the history of a directory is looked for. -/
inductive HistorySource where
  /-- The directory is no repository. -/
  | noRepository
  /-- The repository has no commits yet. -/
  | unborn
  /-- The commits, the latest first. -/
  | commits (latestFirst : List Commit)
deriving Inhabited

/-- Which part of a history is counted: the latest commits from a revision on, or all of them. -/
structure HistoryRange where
  maxCommits : Option Int
  revision : String
deriving DecidableEq, Inhabited

namespace CommitCounts

/-- The number of commits by path, in the order in which the paths are first seen. -/
abbrev Counts := List (String × Int)

/-- Counts one change of a path. -/
def add (path : String) : Counts → Counts
  | [] => [(path, 1)]
  | (p, n) :: rest => if p = path then (p, n + 1) :: rest else (p, n) :: add path rest

/-- The path with slashes between its components. -/
def withSlashes (path : String) : String :=
  String.ofList (path.toList.map fun c => if c = '\\' then '/' else c)

/-- Counts the changes of a list of commits. -/
def ofCommits (counts : Counts) : List Commit → Except Failure Counts
  | [] => .ok counts
  | .error e :: _ => .error e
  | .ok paths :: rest =>
    ofCommits (paths.foldl (fun counts p => add (withSlashes p) counts) counts) rest

/-- The commits within a range; a negative number of them is no limit. -/
def walked (range : HistoryRange) (latestFirst : List Commit) : List Commit :=
  match range.maxCommits with
  | some (.ofNat n) => latestFirst.take n
  | none | some (.negSucc _) => latestFirst

/-- The number of commits by path within a range. -/
def ofSource (range : HistoryRange) : HistorySource → Except Failure Counts
  | .noRepository | .unborn => .ok []
  | .commits latestFirst => ofCommits [] (walked range latestFirst)

/-- The number of commits that changed a path. -/
def of (counts : Counts) (path : String) : Int :=
  match counts.find? (·.1 == path) with
  | some (_, n) => n
  | none => 0

end CommitCounts

end CodeAtlas
