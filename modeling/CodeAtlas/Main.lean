import CodeAtlas.CommandLine.Session
import Std.Time

/-!
# The program

Reads the part of the file system that the program needs, runs a session of it, prints what it
prints and writes the files that it writes.  Remote repositories cannot be cloned and histories
cannot be read from here, so the former fail and the latter are empty.
-/

namespace CodeAtlas.CommandLine

/-- The variables of the environment that matter to the program. -/
def variableNames : List String :=
  ["HOME", "NAVVI_EXTENSIONS", "NAVVI_IGNORE_PATTERNS", "NAVVI_MAX_FILE_SIZE",
    "NAVVI_COMPLEXITY_THRESHOLD", "NAVVI_MAX_WORKERS", "CLONE_DEPTH", "GITHUB_TOKEN",
    "NAVVI_TEMP_DIR", "NAVVI_ENABLE_HISTORY", "NAVVI_CACHE_MAX_ENTRIES", "NAVVI_CACHE_TTL_SECONDS",
    "LOG_LEVEL", "LOG_FILE", "ANALYSIS", "GIT", "CACHE", "LOGGING"]

/-- The entry at a path; what is reached through a link becomes a link. -/
partial def loadEntry (path : String) : IO Entry := do
  let p ← IO.FS.realPath path
  match (← p.metadata).type with
  | .file => return .file (← IO.FS.readBinFile path)
  | .symlink | .other => return .special
  | .dir => pure ()
  let children ← (← p.readDir).toList.filterMapM fun child => do
    if !(← child.path.pathExists) then return none
    let real ← IO.FS.realPath child.path
    if real != child.path then return some (child.fileName, Entry.link real.toString)
    return some (child.fileName, ← loadEntry real.toString)
  return .directory children

/-- The file system with what is on disk at a path, if there is anything. -/
def load (fs : FileSystem) (path : String) : IO FileSystem := do
  match ← (IO.FS.realPath path).toBaseIO with
  | .error _ => return fs
  | .ok p =>
    let entry ← loadEntry p.toString
    let q := Path.ofText p.toString
    let parent : Path := { q with parts := q.parts.dropLast }
    let fs := (fs.ensureDirectories parent).toOption.getD fs
    return fs.setAt entry q.parts

/-- Writes to disk what is new or different at a path. -/
partial def save (path : String) (old : Option Entry) (new : Entry) : IO Unit := do
  match old, new with
  | some (.file before), .file content =>
    if before != content then IO.FS.writeBinFile path content
  | _, .file content => IO.FS.writeBinFile path content
  | _, .link _ | _, .special => return
  | old, .directory children =>
    if old.isNone then IO.FS.createDirAll path
    for (name, entry) in children do
      save (path ++ "/" ++ name) (old.bind fun e => Entry.find? name e.children) entry

/-- The moment at which the program runs. -/
def now : IO Timestamp := do
  let t := (Std.Time.DateTime.ofTimestamp (← Std.Time.Timestamp.now) .UTC).toPlainDateTime
  return ⟨t.year.toNat, t.month.val.toNat, t.day.val.toNat, t.hour.val.toNat, t.minute.val.toNat,
    t.second.val.toNat, t.nanosecond.val.toNat / 1000, some 0⟩

/-- The paths on disk that a session with the given words may read. -/
def neededPaths (home : Path) (environment : List (String × String)) (settingsText : Option String)
    (words : List String) : List String :=
  let logFile := match Settings.load (.create environment settingsText) with
    | .ok settings => settings.log.file.filter (· != "")
    | .error _ => none
  let repository := match ProgramRequest.ofWords words with
    | .ok (.analysis _ words) =>
      match AnalysisRequest.ofWords words with
      | .ok (some r) => if Repository.isRemote r.repository then none else some r.repository
      | _ => none
    | _ => none
  (logFile.toList ++ repository.toList).filterMap fun text =>
    (LocalFetcher.expandHome home (.ofText text)).toOption.map (·.toText)

/-- What the program says about itself when asked for help. -/
def helpText : String :=
  "Usage: navvi [--version] [--log-level LEVEL] [analyze [REPOSITORY] [--json FILE] " ++
    "[--threshold N] [--workers N] [--history | --no-history]]"

/-- What is said when a session ends before its work is done. -/
def farewell : Ending → Option String
  | .finished | .analysisFailed => none
  | .help => some helpText
  | .usage e => some e.message
  | .settings _ => some "The settings cannot be used."
  | .markup e => some e.message
  | .failure f => some f.message

/-- Runs the program. -/
def runProgram (words : List String) : IO UInt32 := do
  let here := Path.ofText (← IO.currentDir).toString
  let environment ← variableNames.filterMapM fun name => do
    return (← IO.getEnv name).map (name, ·)
  let home := Path.ofText ((environment.lookup "HOME").getD "/")
  let empty : FileSystem := ⟨.emptyDirectory, here.parts⟩
  let fs ← load ((empty.ensureDirectories here).toOption.getD empty) Session.settingsFile
  let settingsText := (Session.settingsText fs).toOption.bind id
  let fs ← (neededPaths home environment settingsText words).foldlM load fs
  let surroundings : Surroundings :=
    { fileSystem := fs, home, environment, history := fun _ => .noRepository
      clone := fun _ => .failed (.foreign "GitError" "remote repositories cannot be cloned")
      checkoutEnding := "00000000", now := ← now }
  let (ending, session) := Session.run surroundings words
  session.printed.forM IO.println
  save "" (some fs.root) session.fileSystem.root
  (farewell ending).toList.forM IO.eprintln
  return ending.status.toUInt32

end CodeAtlas.CommandLine

/-- The entry point of the program. -/
def main (words : List String) : IO UInt32 := CodeAtlas.CommandLine.runProgram words
