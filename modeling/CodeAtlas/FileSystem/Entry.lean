import CodeAtlas.Path
import CodeAtlas.Text.Quoted

/-!
# Files, links and directories

A tree of directories whose leaves are files, symbolic links and what is neither.  A location is the
list of names from the root of the tree down to an entry; on the way to it there are directories
only, so that every entry has exactly one location.
-/

namespace CodeAtlas

/-- An entry of a directory. -/
inductive Entry where
  | file (content : ByteArray)
  | link (target : String)
  | directory (children : List (String × Entry))
  /-- A device, a pipe or a socket: it takes what is written to it, and keeps nothing. -/
  | special
deriving Inhabited

/-- The names on the way from the root to an entry. -/
abbrev Location := List String

/-- Why an operation on a file or directory is refused. -/
inductive FileError where
  | notFound
  | alreadyExists
  | notDirectory
  | isDirectory
  | nameTooLong
  | tooManyLinks
  | permissionDenied
  /-- Any other error of the operating system, by its number and in its words. -/
  | system (code : Nat) (description : String)
  /-- A path with a character of code zero names nothing. -/
  | nullCharacter
deriving DecidableEq, Inhabited

namespace FileError

/-- The number of the error, where it has one. -/
def code : FileError → Nat
  | nullCharacter => 0
  | notFound => 2
  | permissionDenied => 13
  | alreadyExists => 17
  | notDirectory => 20
  | isDirectory => 21
  | nameTooLong => 36
  | tooManyLinks => 40
  | system code _ => code

/-- The error in words. -/
def description : FileError → String
  | nullCharacter => "embedded null byte"
  | notFound => "No such file or directory"
  | alreadyExists => "File exists"
  | notDirectory => "Not a directory"
  | isDirectory => "Is a directory"
  | nameTooLong => "File name too long"
  | tooManyLinks => "Too many levels of symbolic links"
  | permissionDenied => "Permission denied"
  | system _ description => description

/-- The wording of the error for a path. -/
def message (e : FileError) (path : String) : String :=
  if e.code = 0 then e.description
  else "[Errno " ++ toString e.code ++ "] " ++ e.description ++ ": " ++ Text.quoted path

/-- The name of the kind of the error. -/
def kind : FileError → String
  | notFound => "FileNotFoundError"
  | alreadyExists => "FileExistsError"
  | notDirectory => "NotADirectoryError"
  | isDirectory => "IsADirectoryError"
  | permissionDenied => "PermissionError"
  | nameTooLong | tooManyLinks | system .. => "OSError"
  | nullCharacter => "ValueError"

end FileError

namespace Entry

/-- The directory without children. -/
def emptyDirectory : Entry := directory []

/-- The children of a directory. -/
def children : Entry → List (String × Entry)
  | directory cs => cs
  | _ => []

/-- The entry is a directory. -/
def isDirectory : Entry → Bool
  | directory _ => true
  | _ => false

/-- The entry of a name among children. -/
def find? (name : String) (children : List (String × Entry)) : Option Entry :=
  (children.find? (·.1 == name)).map (·.2)

/-- Sets the entry of a name among children; a new name comes last. -/
def set (name : String) (e : Entry) : List (String × Entry) → List (String × Entry)
  | [] => [(name, e)]
  | (n, old) :: rest => if n = name then (name, e) :: rest else (n, old) :: set name e rest

/-- The entry at a location below an entry. -/
def at? : Location → Entry → Option Entry
  | [], e => some e
  | name :: rest, e => (find? name e.children).bind (at? rest)

/-- Puts an entry at a location; directories that are missing on the way are made. -/
def put (new : Entry) : Location → Entry → Entry
  | [], _ => new
  | name :: rest, e =>
    let old := (find? name e.children).getD emptyDirectory
    directory (set name (put new rest old) e.children)

/-- Removes the entry at a location with all that lies below it. -/
def remove : Location → Entry → Entry
  | [], e => e
  | [name], e => directory (e.children.filter (·.1 != name))
  | name :: rest, e =>
    match find? name e.children with
    | some old => directory (set name (remove rest old) e.children)
    | none => e

mutual
/-- The number of directories in a tree. -/
def directoryCount : Entry → Nat
  | directory cs => directoryCountAmong cs + 1
  | _ => 0

/-- The number of directories in a list of trees. -/
def directoryCountAmong : List (String × Entry) → Nat
  | [] => 0
  | (_, e) :: rest => directoryCount e + directoryCountAmong rest
end

mutual
/-- The number of links in a tree. -/
def linkCount : Entry → Nat
  | file _ | special => 0
  | link _ => 1
  | directory cs => linkCountAmong cs

/-- The number of links in a list of trees. -/
def linkCountAmong : List (String × Entry) → Nat
  | [] => 0
  | (_, e) :: rest => linkCount e + linkCountAmong rest
end

end Entry

end CodeAtlas
