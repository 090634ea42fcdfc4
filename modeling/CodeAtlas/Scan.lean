import CodeAtlas.FileSystem.Basic

/-!
# Scanning a directory for source files

The directories below a root are searched depth first and in the order of their names.  Ignored
directories are not entered, and no directory is searched twice, whatever links lead to it.  What
cannot be listed or examined is left out with a warning, be it for the links on the way or because
the operating system refuses it (`Refusals`).
-/

namespace CodeAtlas

/-- Which files a scan looks for and which directories it leaves out. -/
structure ScanSettings where
  extensions : List String
  ignorePatterns : List String
  maxFileSize : Int
deriving DecidableEq, Inhabited

/-- What a scan leaves out because of an error. -/
inductive ScanWarning where
  | unlisted (directory : Path) (error : FileError)
  | unexamined (entry : Path) (error : FileError)
deriving DecidableEq, Inhabited

/-- The wording of the warning. -/
def ScanWarning.message : ScanWarning → String
  | unlisted p e => "Cannot list directory " ++ p.toText ++ ": " ++ e.message p.toText
  | unexamined p e => "Cannot stat " ++ p.toText ++ ": " ++ e.message p.toText

/-- How far a scan has come: the directories that were searched, by location, the files found so far
and the warnings, both in order. -/
structure Scan where
  visited : List Location
  files : List Path
  warnings : List ScanWarning
deriving DecidableEq, Inhabited

namespace ScanSettings

/-- What is scanned for unless something else is chosen. -/
def standard : ScanSettings :=
  ⟨[".js", ".jsx", ".mjs", ".cjs", ".ts", ".tsx"], ["node_modules", ".git", "dist", "build"],
    1024 * 1024⟩

/-- A directory with the given names below the root is ignored: its name is a pattern, or a pattern
occurs in its path from the root on. -/
def ignores (s : ScanSettings) (below : List String) : Bool :=
  s.ignorePatterns.any fun pattern =>
    below.getLast? == some pattern || Text.occursIn pattern (PathText.ofComponents below)

/-- Files of the given name are looked for if they are not too large. -/
def admits (s : ScanSettings) (name : String) : Bool :=
  s.extensions.contains (Text.lower (Path.suffixOf name))

/-- A file of the given name and size is looked for. -/
def accepts (s : ScanSettings) (name : String) (size : Nat) : Bool :=
  s.admits name && (size : Int) ≤ s.maxFileSize

end ScanSettings

namespace Scan

/-- Nothing has been searched. -/
def start : Scan := ⟨[], [], []⟩

/-- Adds a warning. -/
def warn (s : Scan) (w : ScanWarning) : Scan := { s with warnings := s.warnings ++ [w] }

/-- The path of the names below a root. -/
def pathBelow (root : Path) (below : List String) : Path :=
  ⟨root.slashes, root.parts ++ below⟩

/-- What an entry of a directory turns out to be when links are followed; nothing for a link that
leads nowhere. -/
def target (fs : FileSystem) (refusals : Refusals) (p : Path) :
    Entry → Except FileError (Option Entry)
  | .link _ =>
    match refusals.lookUp fs p with
    | .ok e => .ok (some e)
    | .error .notFound => .ok none
    | .error e => .error e
  | e => .ok (some e)

/-- Adds a file, unless it is none that is looked for.  It is examined for its size, and only if its
name is one to look for. -/
def addFile (refusals : Refusals) (settings : ScanSettings) (p : Path) (name : String) (size : Nat)
    (s : Scan) : Scan :=
  if settings.admits name then
    match refusals.examining p with
    | some e => s.warn (.unexamined p e)
    | none => if settings.accepts name size then { s with files := s.files ++ [p] } else s
  else s

/-- Searches one entry of a directory: a directory is handed on to `enter`, and a file is added. -/
def visitEntry (fs : FileSystem) (refusals : Refusals) (settings : ScanSettings) (root : Path)
    (enter : List String → Scan → Scan) (below : List String) (s : Scan)
    (child : String × Entry) : Scan :=
  let below := below ++ [child.1]
  let p := pathBelow root below
  match target fs refusals p child.2 with
  | .ok (some (.directory _)) => if settings.ignores below then s else enter below s
  | .ok (some (.file content)) => s.addFile refusals settings p child.1 content.size
  | .ok _ => s
  | .error e => s.warn (.unexamined p e)

/-- Searches the directory with the given names below the root, unless it was searched before;
directories in it are handed on to `enter`. -/
def search (fs : FileSystem) (refusals : Refusals) (settings : ScanSettings) (root : Path)
    (enter : List String → Scan → Scan) (below : List String) (s : Scan) : Scan :=
  let p := pathBelow root below
  match fs.locate p with
  | .error e => s.warn (.unlisted p e)
  | .ok real =>
    if s.visited.contains real then s
    else
      let s := { s with visited := real :: s.visited }
      match refusals.list fs p with
      | .error e => s.warn (.unlisted p e)
      | .ok children => children.foldl (visitEntry fs refusals settings root enter below) s

/-- Searches the directory with the given names below the root, and those in it to the given depth.
-/
def visit (fs : FileSystem) (refusals : Refusals) (settings : ScanSettings) (root : Path) :
    Nat → List String → Scan → Scan
  | 0 => fun _ s => s
  | depth + 1 => search fs refusals settings root (visit fs refusals settings root depth)

/-- Searches a root directory.  Every directory that is entered is a new one, so there is no need to
go deeper than there are directories. -/
def ofRoot (fs : FileSystem) (settings : ScanSettings) (root : Path)
    (refusals : Refusals := .none) : Scan :=
  visit fs refusals settings root (fs.root.directoryCount + 1) [] start

end Scan

end CodeAtlas
