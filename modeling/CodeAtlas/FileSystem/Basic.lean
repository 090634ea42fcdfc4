import CodeAtlas.FileSystem.Entry

/-!
# File systems

A file system is a tree of entries with a current directory.  A path is followed to a location: a
link on the way stands for the path that is its target, seen from the directory in which the link
lies.  No path leads over more than forty links.

What an operating system refuses for other reasons, such as the length of a whole path or a missing
permission, is no matter of the tree.  Where it counts, it is given beside it (`Refusals`).
-/

namespace CodeAtlas

/-- A file system. -/
structure FileSystem where
  root : Entry
  here : Location
deriving Inhabited

namespace FileSystem

/-- No path leads over more links than this. -/
def maxLinks : Nat := 40

/-- No name is longer than this, in bytes. -/
def maxNameBytes : Nat := 255

/-- The entry at a location. -/
def entry? (fs : FileSystem) (l : Location) : Option Entry := Entry.at? l fs.root

/-- Where a path ends: at an entry, or at a name that its directory does not have. -/
inductive Place where
  | found (location : Location)
  | missing (location : Location)
deriving DecidableEq, Inhabited

/-- Follows names from a location.  `follow` takes over at the target of a link; the last name is
not followed if `keepLast` holds. -/
def step (fs : FileSystem) (keepLast : Bool)
    (follow : Location → List String → Except FileError Place) :
    Location → List String → Except FileError Place
  | here, [] => .ok (.found here)
  | here, name :: rest =>
    match fs.entry? here with
    | some (.directory children) =>
      if name = "" || name = "." then step fs keepLast follow here rest
      else if name = ".." then step fs keepLast follow here.dropLast rest
      else if maxNameBytes < name.utf8ByteSize then .error .nameTooLong
      else match Entry.find? name children with
        | none => if rest.isEmpty then .ok (.missing (here ++ [name])) else .error .notFound
        | some (.link target) =>
          if rest.isEmpty && keepLast then .ok (.found (here ++ [name]))
          else follow (if Text.beginsWith "/" target then [] else here)
            (PathText.components target ++ rest)
        | some _ => step fs keepLast follow (here ++ [name]) rest
    | _ => .error .notDirectory

/-- Follows names from a location over at most the given number of links. -/
def walk (fs : FileSystem) (keepLast : Bool) :
    Nat → Location → List String → Except FileError Place
  | 0 => fs.step keepLast fun _ _ => .error .tooManyLinks
  | links + 1 => fs.step keepLast (walk fs keepLast links)

/-- Where a path ends. -/
def place (fs : FileSystem) (keepLast : Bool) (p : Path) : Except FileError Place :=
  if p.parts.any (·.toList.contains '\x00') then .error .nullCharacter
  else fs.walk keepLast maxLinks (if p.isAbsolute then [] else fs.here) p.parts

/-- The location that a path leads to. -/
def locate (fs : FileSystem) (p : Path) : Except FileError Location :=
  match fs.place false p with
  | .ok (.found l) => .ok l
  | .ok (.missing _) => .error .notFound
  | .error e => .error e

/-- One name on the way to a location of which the end need not exist.  `follow` takes over at the
target of a link; a link that it cannot follow is left as it is. -/
def resolveStep (fs : FileSystem) (follow : Location → List String → Option Location)
    (here : Location) (name : String) : Location :=
  if name = "" || name = "." then here
  else if name = ".." then here.dropLast
  else match fs.entry? (here ++ [name]) with
    | some (.link target) =>
      (follow (if Text.beginsWith "/" target then [] else here)
        (PathText.components target)).getD (here ++ [name])
    | _ => here ++ [name]

/-- Where names lead from a location, if links lead on from within links no more often than the
given number of times. -/
def resolveFrom (fs : FileSystem) : Nat → Location → List String → Location
  | 0 => List.foldl (fs.resolveStep fun _ _ => none)
  | links + 1 => List.foldl (fs.resolveStep fun here names => some (resolveFrom fs links here names))

/-- The location that a path leads to, or would lead to if what is missing on the way were
directories and files. -/
def resolve (fs : FileSystem) (p : Path) : Location :=
  fs.resolveFrom fs.root.linkCount (if p.isAbsolute then [] else fs.here) p.parts

/-- The entry that a path leads to. -/
def lookUp (fs : FileSystem) (p : Path) : Except FileError Entry :=
  match fs.locate p with
  | .ok l =>
    match fs.entry? l with
    | some e => .ok e
    | none => .error .notFound
  | .error e => .error e

/-- The path of a location. -/
def pathOf (l : Location) : Path := ⟨1, l⟩

/-- The children of the directory that a path leads to, by name. -/
def list (fs : FileSystem) (p : Path) : Except FileError (List (String × Entry)) :=
  match fs.lookUp p with
  | .ok (.directory children) => .ok (children.mergeSort fun a b => a.1 ≤ b.1)
  | .ok _ => .error .notDirectory
  | .error e => .error e

/-- The bytes of the file that a path leads to. -/
def read (fs : FileSystem) (p : Path) : Except FileError ByteArray :=
  match fs.lookUp p with
  | .ok (.file content) => .ok content
  | .ok .special => .ok ByteArray.empty
  | .ok _ => .error .isDirectory
  | .error e => .error e

/-- The path leads to a directory.  A path that leads nowhere does not, and one that cannot be
followed for its length has no answer. -/
def isDirectory (fs : FileSystem) (p : Path) : Except FileError Bool :=
  match fs.lookUp p with
  | .ok e => .ok e.isDirectory
  | .error .nameTooLong => .error .nameTooLong
  | .error _ => .ok false

end FileSystem

/-- What the operating system refuses about entries that a file system has: for want of a
permission, for the length of the whole path, for a fault of a disk. -/
structure Refusals where
  /-- Why the entry at a path cannot be examined, if it cannot. -/
  examining : Path → Option FileError
  /-- Why the directory at a path cannot be listed, if it cannot. -/
  listing : Path → Option FileError
  /-- What is there is not said to be missing. -/
  examining_ne_notFound : ∀ p, examining p ≠ some .notFound

namespace Refusals

/-- Nothing is refused. -/
def none : Refusals := ⟨fun _ => .none, fun _ => .none, fun _ => nofun⟩

/-- No path is longer than this, in bytes. -/
def maxPathBytes : Nat := 4095

/-- Why a path is refused whatever it leads to: it is too long. -/
def overlong (p : Path) : Option FileError :=
  if maxPathBytes < p.toText.utf8ByteSize then some .nameTooLong else .none

/-- Paths are refused that are too long. -/
def ofLength : Refusals := ⟨overlong, overlong, fun p => by unfold overlong; split <;> simp⟩

/-- The entry that a path leads to, if it can be examined. -/
def lookUp (r : Refusals) (fs : FileSystem) (p : Path) : Except FileError Entry :=
  match r.examining p with
  | some e => .error e
  | .none => fs.lookUp p

/-- The children of the directory that a path leads to, if it can be listed. -/
def list (r : Refusals) (fs : FileSystem) (p : Path) : Except FileError (List (String × Entry)) :=
  match r.listing p with
  | some e => .error e
  | .none => fs.list p

end Refusals

namespace FileSystem

/-! ### Changes -/

/-- Puts an entry at a location. -/
def setAt (fs : FileSystem) (e : Entry) (l : Location) : FileSystem :=
  { fs with root := Entry.put e l fs.root }

/-- Writes a file; its directory must be there. -/
def write (fs : FileSystem) (p : Path) (content : ByteArray) : Except FileError FileSystem :=
  match fs.place false p with
  | .ok (.missing l) => .ok (fs.setAt (.file content) l)
  | .ok (.found l) =>
    match fs.entry? l with
    | some (.directory _) => .error .isDirectory
    | some .special => .ok fs
    | _ => .ok (fs.setAt (.file content) l)
  | .error e => .error e

/-- Makes one directory, which must not be there yet. -/
def makeDirectory (fs : FileSystem) (p : Path) : Except FileError FileSystem :=
  match fs.place true p with
  | .ok (.missing l) => .ok (fs.setAt .emptyDirectory l)
  | .ok (.found _) => .error .alreadyExists
  | .error e => .error e

/-- Makes a directory unless it is there. -/
def ensureDirectory (fs : FileSystem) (p : Path) : Except FileError FileSystem :=
  match fs.makeDirectory p with
  | .error .alreadyExists =>
    match fs.lookUp p with
    | .ok (.directory _) => .ok fs
    | _ => .error .alreadyExists
  | r => r

/-- Why nothing can be made below a path at which there is something other than a directory. -/
def obstacle (fs : FileSystem) (p : Path) : FileError :=
  match fs.lookUp p with
  | .ok _ => .notDirectory
  | .error .notFound => .alreadyExists
  | .error e => e

/-- Makes every directory on the way along the names behind a path. -/
def ensureFrom (fs : FileSystem) (p : Path) : List String → Except FileError FileSystem
  | [] => .ok fs
  | name :: rest =>
    let p : Path := { p with parts := p.parts ++ [name] }
    match fs.ensureDirectory p with
    | .ok fs => ensureFrom fs p rest
    | .error .alreadyExists => .error (if rest.isEmpty then .alreadyExists else fs.obstacle p)
    | .error e => .error e

/-- The directories on the way along the names behind a path, made as far as they can be made. -/
def makeFrom (fs : FileSystem) (p : Path) : List String → FileSystem
  | [] => fs
  | name :: rest =>
    let p : Path := { p with parts := p.parts ++ [name] }
    match fs.ensureDirectory p with
    | .ok fs => makeFrom fs p rest
    | .error _ => fs

/-- Makes a directory and those above it, unless they are there. -/
def ensureDirectories (fs : FileSystem) (p : Path) : Except FileError FileSystem :=
  fs.ensureFrom { p with parts := [] } p.parts

/-- Makes a link, which must not be there yet. -/
def makeLink (fs : FileSystem) (p : Path) (target : String) : Except FileError FileSystem :=
  match fs.place true p with
  | .ok (.missing l) => .ok (fs.setAt (.link target) l)
  | .ok (.found _) => .error .alreadyExists
  | .error e => .error e

/-- Removes what a path names with all that lies below it. -/
def remove (fs : FileSystem) (p : Path) : FileSystem :=
  match fs.place true p with
  | .ok (.found l) => { fs with root := fs.root.remove l }
  | _ => fs

/-- Puts entries into a directory in place of those that it has. -/
def fillDirectory (fs : FileSystem) (p : Path) (children : List (String × Entry)) : FileSystem :=
  match fs.locate p with
  | .ok l =>
    match fs.entry? l with
    | some (.directory _) => fs.setAt (.directory children) l
    | _ => fs
  | .error _ => fs

/-- Removes a directory with all that lies below it; what is no directory stays, a link to one
included. -/
def removeDirectory (fs : FileSystem) (p : Path) : FileSystem :=
  match fs.place true p with
  | .ok (.found l) =>
    if (fs.entry? l).any Entry.isDirectory then { fs with root := fs.root.remove l } else fs
  | _ => fs

end FileSystem

end CodeAtlas
