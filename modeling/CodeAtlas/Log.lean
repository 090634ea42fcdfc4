import CodeAtlas.Repository.Checkout

/-!
# The log

Records of the loggers of this program are written by handlers: one for the console and one for a
file, which is kept from growing without bound by setting full files aside.  Setting the log up anew
with what it was last set up with successfully changes nothing.
-/

namespace CodeAtlas

/-- How serious a record is; the greater, the more. -/
abbrev LogLevel := Int

namespace LogLevel

/-- The levels with names, the usual name of each first. -/
def named : List (LogLevel × String) :=
  [(50, "CRITICAL"), (50, "FATAL"), (40, "ERROR"), (30, "WARNING"), (30, "WARN"), (20, "INFO"),
    (10, "DEBUG"), (0, "NOTSET")]

/-- The level from which on records are written unless another is chosen. -/
def standard : LogLevel := 20

/-- The level from which on records are written where none is set. -/
def inherited : LogLevel := 30

/-- The upper case of a letter if that is a letter of ASCII, as it is for the dotless i and for the
long s.  No name of a level has letters to which a single letter is expanded. -/
def upperLetter : Char → Char
  | '\u0131' => 'I'
  | '\u017f' => 'S'
  | c => c.toUpper

/-- The level of which the name is the word in upper case; the standard level for other words. -/
def ofName (word : String) : LogLevel :=
  let upper := String.ofList (word.toList.map upperLetter)
  ((named.find? fun (_, name) => name == upper).map (·.1)).getD standard

/-- The word for a level. -/
def name (level : LogLevel) : String :=
  match named.find? (·.1 == level) with
  | some (_, name) => name
  | none => "Level " ++ toString level

end LogLevel

/-- Something that writes records of at least a given level. -/
inductive LogHandler where
  | console (level : LogLevel)
  | file (path : Path) (level : LogLevel)
deriving DecidableEq, Inhabited

/-- The level from which on a handler writes. -/
def LogHandler.level : LogHandler → LogLevel
  | console level | file _ level => level

/-- What the log is set up with. -/
structure LogRequest where
  level : LogLevel
  file : Option String
  console : Bool
deriving DecidableEq, Inhabited

/-- The log: what it was last set up with successfully, its level and its handlers. -/
structure Log where
  request : Option LogRequest
  level : LogLevel
  handlers : List LogHandler
deriving DecidableEq, Inhabited

/-- A record of a logger. -/
structure LogRecord where
  logger : String
  level : LogLevel
  message : String
deriving DecidableEq, Inhabited

namespace Log

/-- The name of the logger that all others of this program are below. -/
def rootName : String := "navvi"

/-- Nothing has been set up. -/
def start : Log := ⟨none, LogLevel.inherited, []⟩

/-- The handler of the console for a request. -/
def consoleHandlers (r : LogRequest) : List LogHandler :=
  if r.console then [.console r.level] else []

/-- Opens the log file at a path without links.  Directories that are made for it stay even if this
fails. -/
def openAt (p : Path) (fs : FileSystem) : Except Failure Path × FileSystem :=
  match fs.lookUp p with
  | .error .tooManyLinks =>
    (.error (.foreign "RuntimeError" ("Symlink loop from " ++ Text.quoted p.toText)), fs)
  | .error .nullCharacter => (.error (.file .nullCharacter p.toText), fs)
  | _ =>
    let parent : Path := { p with parts := p.parts.dropLast }
    match fs.ensureDirectories parent with
    | .error e => (.error (.file e parent.toText), fs.makeFrom { p with parts := [] } parent.parts)
    | .ok fs =>
      match fs.read p with
      | .ok _ => (.ok p, fs)
      | .error .notFound =>
        match fs.write p ByteArray.empty with
        | .ok fs => (.ok p, fs)
        | .error e => (.error (.file e p.toText), fs)
      | .error e => (.error (.file e p.toText), fs)

/-- Opens the log file of a request and returns where it is. -/
def openFile (home : Path) (file : String) (fs : FileSystem) : Except Failure Path × FileSystem :=
  match LocalFetcher.expandHome home (.ofText file) with
  | .ok p => openAt (FileSystem.pathOf (fs.resolve p)) fs
  | .error e => (.error e, fs)

/-- The log as it is set up for a request, whatever it was before.  When the file cannot be opened,
the level and the handler of the console have been set up already. -/
def configure (home : Path) (r : LogRequest) (l : Log) (fs : FileSystem) :
    Except Failure Unit × Log × FileSystem :=
  let l : Log := { l with level := r.level, handlers := consoleHandlers r }
  match r.file.filter (· != "") with
  | none => (.ok (), { l with request := some r }, fs)
  | some file =>
    match openFile home file fs with
    | (.ok p, fs) =>
      (.ok (), { l with request := some r, handlers := l.handlers ++ [.file p r.level] }, fs)
    | (.error e, fs) => (.error e, l, fs)

/-- The log was last set up for the same request. -/
def isCurrent (r : LogRequest) (l : Log) : Bool := l.request == some r

/-- Sets the log up for a request, unless it was last set up for it. -/
def setup (home : Path) (r : LogRequest) (l : Log) (fs : FileSystem) :
    Except Failure Unit × Log × FileSystem :=
  if l.isCurrent r then (.ok (), l, fs) else configure home r l fs

/-! ### Records -/

/-- The logger belongs to this program. -/
def owns (logger : String) : Bool := logger == rootName || Text.beginsWith (rootName ++ ".") logger

/-- The level from which on records are handed to the handlers. -/
def effectiveLevel (l : Log) : LogLevel := if l.level = 0 then LogLevel.inherited else l.level

/-- The record is handed to the handlers. -/
def accepts (l : Log) (r : LogRecord) : Bool :=
  owns r.logger && 0 < r.level && l.effectiveLevel ≤ r.level

/-- The line for a record; `time` is the time of day with its date. -/
def line (time : String) (r : LogRecord) : String :=
  time ++ " - " ++ r.logger ++ " - " ++ LogLevel.name r.level ++ " - " ++ r.message ++ "\n"

/-- A log file is set aside when it would reach this size. -/
def maxFileBytes : Nat := 10 * 1024 * 1024

/-- This many files are kept besides the current one. -/
def backupCount : Nat := 5

/-- The path of a file that was set aside. -/
def backupPath (p : Path) (index : Nat) : Path :=
  { p with parts := p.parts.dropLast ++ [p.name ++ "." ++ toString index] }

/-- Moves a file; nothing happens if it is not there. -/
def move (source target : Path) (fs : FileSystem) : FileSystem :=
  match fs.read source with
  | .ok content => ((fs.write target content).toOption.getD fs).remove source
  | .error _ => fs

/-- Sets a full file aside; the oldest one is lost. -/
def rotate (p : Path) (fs : FileSystem) : FileSystem :=
  let older := (List.range (backupCount - 1)).reverse.foldl
    (fun fs i => move (backupPath p (i + 1)) (backupPath p (i + 2)) fs) fs
  move p (backupPath p 1) older

/-- Adds text at the end of a file, which is set aside first if it would become too large. -/
def append (p : Path) (text : String) (fs : FileSystem) : FileSystem :=
  let held := (fs.read p).toOption.getD ByteArray.empty
  let full := 0 < held.size && maxFileBytes ≤ held.size + text.length
  let fs := if full then rotate p fs else fs
  let held := if full then ByteArray.empty else held
  (fs.write p (held ++ text.toUTF8)).toOption.getD fs

/-- Writes a record to the log files. -/
def write (time : String) (r : LogRecord) (l : Log) (fs : FileSystem) : FileSystem :=
  if !l.accepts r then fs
  else l.handlers.foldl (fun fs h =>
    match h with
    | .file p level => if level ≤ r.level then append p (line time r) fs else fs
    | .console _ => fs) fs

end Log

end CodeAtlas
