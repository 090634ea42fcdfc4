import CodeAtlas.Engine.Basic
import CodeAtlas.Source

/-!
# The usual collaborators

The collaborators of a run over a file system that stays as it is.
-/

namespace CodeAtlas

namespace Engine

/-- The record of a file in the dialect that its name tells. -/
def analyzeFileIn (fs : FileSystem) (file root : Path) : Except Failure (Option FileRecord) :=
  match Dialect.ofPath? file with
  | none => .ok none
  | some dialect => (FileRecord.ofFile fs dialect file root).map some

/-- The collaborators for a checkout in a file system, with nobody listening.  The operating system
refuses the scan nothing unless something is given for it. -/
def standard (fs : FileSystem) (settings : ScanSettings) (detectors : List Detector)
    (threshold : Int) (checkout : Except Failure Path)
    (history : Option (Path → Except Failure CommitCounts.Counts)) (now : Timestamp)
    (refusals : Refusals := .none) : Collaborators :=
  { fetch := fun _ => checkout
    scan := fun root => .ok (Scan.ofRoot fs settings root refusals)
    analyzeFile := analyzeFileIn fs
    completion := id
    history
    group := fun files => .ok (Architecture.ofFiles detectors files)
    measure := fun files =>
      match Metrics.ofFiles threshold files with
      | .ok m => .ok m
      | .error e => .error (.score e)
    conclude := fun files architecture metrics =>
      .ok (Insights.ofFiles threshold files architecture metrics)
    receive := fun _ => .ok ()
    isCancelled := fun _ => false
    now }

end Engine

end CodeAtlas
