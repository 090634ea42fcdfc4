import CodeAtlas.CommandLine.Request
import CodeAtlas.Console.Renderer
import CodeAtlas.Engine.Standard
import CodeAtlas.Export.Analysis
import CodeAtlas.Log
import CodeAtlas.Report
import CodeAtlas.Settings.Load

/-!
# Running the program

A session of the program: it loads its settings, sets up its log and does what the command line asks
for.  What it finds around itself is given; what it prints and writes is its result.
-/

namespace CodeAtlas

namespace CommandLine

open Console

/-- What the program finds around itself. -/
structure Surroundings where
  fileSystem : FileSystem
  home : Path
  environment : List (String × String)
  /-- The history of a directory. -/
  history : Path → HistorySource
  /-- What becomes of an attempt to clone a repository. -/
  clone : String → CloneResult
  /-- The end of the name of a new checkout. -/
  checkoutEnding : String
  now : Timestamp
  /-- Where the system keeps what is temporary. -/
  systemTempRoot : Path := GitFetcher.standardTempRoot
  /-- What the operating system refuses a scan. -/
  refusals : Refusals := .ofLength
  /-- What shows texts on the console. -/
  renderer : Renderer := .standard
  /-- How many columns the console has. -/
  width : Nat := usualWidth

/-- How a session ends. -/
inductive Ending where
  | finished
  /-- Nothing but help was asked for. -/
  | help
  | usage (error : UsageError)
  /-- The analysis failed, which has been printed. -/
  | analysisFailed
  | settings (error : SettingsError)
  | markup (fault : MarkupFault)
  | failure (failure : Failure)
deriving Inhabited

/-- The exit status of the program. -/
def Ending.status : Ending → Nat
  | finished | help => 0
  | usage _ => 2
  | analysisFailed | settings _ | markup _ | failure _ => 1

/-- The state of a session. -/
structure Session where
  printed : List String
  fileSystem : FileSystem
  log : Log
deriving Inhabited

/-- A step of a session, which may be its last. -/
abbrev SessionStep := ExceptT Ending (StateM Session)

namespace Session

/-- Prints a block. -/
def display (w : Surroundings) (b : Block) : SessionStep Unit := do
  let p := print [b] w.renderer w.width
  modify fun s => { s with printed := s.printed ++ p.lines }
  match p.fault with
  | none => return
  | some e => throw (.markup e)

/-- A result that has been had elsewhere. -/
def ofResult {α : Type} : Except Failure α → SessionStep α
  | .ok a => pure a
  | .error e => throw (.failure e)

/-- Prints a title with a line below it, which is left out if it would be empty. -/
def displayTitle (w : Surroundings) (title subtitle : String) : SessionStep Unit := do
  display w .blank
  display w (.rule ("[title]" ++ title ++ "[/title]"))
  if !subtitle.isEmpty then display w (.centred ("[subtitle]" ++ subtitle ++ "[/subtitle]"))
  display w .blank

/-! ### Settings and log -/

/-- The name of the file with settings in the current directory. -/
def settingsFile : String := ".env"

/-- The text of the file with settings, if there is one. -/
def settingsText (fs : FileSystem) : Except Failure (Option String) :=
  match fs.read (.ofText settingsFile) with
  | .error _ => .ok none
  | .ok bytes =>
    match Text.decode bytes with
    | .ok text => .ok (some text)
    | .error e => .error (.foreign "UnicodeDecodeError" e.message)

/-- Loads the settings. -/
def loadSettings (w : Surroundings) : SessionStep Settings := do
  let file ← ofResult (settingsText (← get).fileSystem)
  match Settings.load (.create w.environment file) with
  | .ok settings => return settings
  | .error e => throw (.settings e)

/-- Sets the log up; the level of the settings counts unless another is given. -/
def setUpLog (w : Surroundings) (settings : LogSettings) (level : Option String) :
    SessionStep Unit := do
  let s ← get
  let request : LogRequest :=
    ⟨LogLevel.ofName (level.getD settings.level), settings.file, true⟩
  let (result, log, fileSystem) := s.log.setup w.home request s.fileSystem
  set { s with log, fileSystem }
  ofResult result

/-- The level of a notice. -/
def levelOf : Severity → LogLevel
  | .warning => 30
  | .error => 40

/-- A notice as a record of the log. -/
def recordOf (n : Notice) : LogRecord := ⟨Log.rootName, levelOf n.severity, n.message⟩

/-- Writes notices to the log. -/
def writeNotices (now : Timestamp) (notices : List Notice) : SessionStep Unit :=
  modify fun s =>
    let time := String.ofList (now.toText.toList.take 19 |>.map fun c => if c = 'T' then ' ' else c)
    let write (fs : FileSystem) (n : Notice) := s.log.write time (recordOf n) fs
    { s with fileSystem := notices.foldl write s.fileSystem }

/-! ### Analyses -/

/-- The text that is shown while an analysis is under way. -/
def progressText (e : ProgressEvent) : String :=
  "[progress.description][cyan]" ++ (e.stage.map Stage.name).getD "" ++ "[/cyan] " ++ e.message

/-- Fails if the text shown last while an analysis was under way cannot be shown. -/
def checkProgress (w : Surroundings) (events : List ProgressEvent) : SessionStep Unit :=
  match events.getLast? with
  | none => return
  | some e =>
    match w.renderer.plain (progressText e) with
    | .ok _ => return
    | .error fault => throw (.markup fault)

/-- Analyses a repository with the given settings. -/
def analyze (w : Surroundings) (settings : Settings) (repository : String) :
    SessionStep Analysis := do
  let store : Except StoreError (Store Analysis Double) :=
    Store.create settings.cache.maxEntries settings.cache.timeToLive
  if let .error e := store then throw (.failure (.foreign "ValueError" e.message))
  let tempRoot ← ofResult (settings.tempRoot w.home)
  let fetcher : Fetcher := .either ⟨settings.git.cloneDepth, settings.git.token, tempRoot⟩
  let (checkout, checkouts, _) :=
    fetcher.fetch w.home repository w.checkoutEnding (w.clone repository)
      ⟨(← get).fileSystem, []⟩ w.systemTempRoot
  let history (root : Path) := CommitCounts.ofSource ⟨none, "HEAD"⟩ (w.history root)
  let collaborators := Engine.standard checkouts.fileSystem settings.analysis.scan Detector.standard
    settings.analysis.complexityThreshold checkout (some history) w.now w.refusals
  let options : RunOptions := ⟨settings.analysis.maxWorkers, settings.git.usesHistory, true⟩
  let (outcome, run) := Engine.analyze collaborators options repository
  let left := run.released.foldl (fun c p => fetcher.release p c) checkouts
  modify fun s => { s with fileSystem := left.fileSystem }
  writeNotices w.now run.notices
  match outcome with
  | .completed a => return a
  | .cancelled message => throw (.failure (.cancelled message))
  | .failed f =>
    checkProgress w run.tracker.events
    display w .blank
    display w (.text ("❌ [error]" ++ f.message ++ "[/error]"))
    throw .analysisFailed

/-- Writes an analysis as JSON to a file; directories on the way are made. -/
def writeJson (a : Analysis) (file : Path) : SessionStep Unit := do
  let s ← get
  let parent : Path := { file with parts := file.parts.dropLast }
  let failed (p : Path) (e : FileError) : Failure := .file e p.toText
  let fs ← ofResult ((s.fileSystem.ensureDirectories parent).mapError (failed parent))
  let fs ← ofResult ((fs.write file (a.toJsonText (some 2)).toUTF8).mapError (failed file))
  set { s with fileSystem := fs }

/-- Does what a request to analyse a repository says. -/
def answer (w : Surroundings) (settings : Settings) (r : AnalysisRequest) : SessionStep Unit := do
  displayTitle w ("Analyzing: " ++ Repository.nameOf r.repository) r.repository
  let analysis ← tryCatch (analyze w (r.adjust settings) r.repository) fun ending => do
    display w .blank
    throw ending
  display w .blank
  analysis.report.forM (display w)
  match r.jsonFile with
  | none => return
  | some file =>
    let p := Path.ofText file
    writeJson analysis p
    display w (.text ("✅ [success]Analysis written to " ++ p.toText ++ "[/success]"))

/-! ### The program -/

/-- The version of the program. -/
def version : String := "0.1.0"

/-- Does what the words of a command line ask for. -/
def course (w : Surroundings) (words : List String) : SessionStep Unit := do
  let request ← match ProgramRequest.ofWords words with
    | .ok r => pure r
    | .error e => throw (.usage e)
  let prepare (level : Option String) : SessionStep Settings := do
    let settings ← loadSettings w
    setUpLog w settings.log level
    return settings
  match request with
  | .help => throw .help
  | .version => display w (.text ("[bold cyan]Navvi[/bold cyan] v" ++ version))
  | .overview level =>
    let _ ← prepare level
    displayTitle w "Navvi" "Repository analyzer"
    display w (.text "Use [bold green]navvi --help[/bold green] to see available commands.")
  | .analysis level words =>
    let settings ← prepare level
    match AnalysisRequest.ofWords words with
    | .error e => throw (.usage e)
    | .ok none => throw .help
    | .ok (some r) => answer w settings r

/-- Runs the program with the words of a command line. -/
def run (w : Surroundings) (words : List String) : Ending × Session :=
  match (course w words).run ⟨[], w.fileSystem, .start⟩ with
  | (.ok (), s) => (.finished, s)
  | (.error ending, s) => (ending, s)

end Session

end CommandLine

end CodeAtlas
