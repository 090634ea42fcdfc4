import CodeAtlas.Text.LowerCase
import CodeAtlas.Text.Search

/-!
# Paths

Paths are texts with slashes.  The functions of the first part work on the text as it is written;
those of the second on a `Path`, in which empty and `.` components are left out but `..` is kept.
`Path.normalize` collapses `..` as well.
-/

namespace CodeAtlas

/-! ### Paths as text -/

namespace PathText

/-- The parts of a list between the elements equal to `sep`. -/
def splitOn (sep : Char) : List Char → List (List Char)
  | [] => [[]]
  | c :: rest =>
    if c = sep then [] :: splitOn sep rest
    else match splitOn sep rest with
      | [] => [[c]]
      | part :: parts => (c :: part) :: parts

/-- The components of a path between its slashes. -/
def components (p : String) : List String := (splitOn '/' p.toList).map String.ofList

/-- The components joined by slashes. -/
def ofComponents (parts : List String) : String := "/".intercalate parts

/-- Everything up to and including the last slash, and what follows it. -/
def splitLast (p : String) : List Char × List Char :=
  let tail := (p.toList.reverse.takeWhile (· ≠ '/')).reverse
  (p.toList.take (p.length - tail.length), tail)

/-- The part of a path behind its last slash. -/
def basename (p : String) : String := String.ofList (splitLast p).2

/-- The part of a path before its last slash, without slashes at its end unless it consists of
them. -/
def dirname (p : String) : String :=
  let head := (splitLast p).1
  let trimmed := (head.reverse.dropWhile (· = '/')).reverse
  String.ofList (if trimmed.isEmpty then head else trimmed)

/-- A path without its extension, and the extension with its point.  Points at the beginning of the
last component belong to its name. -/
def splitExtension (p : String) : String × String :=
  let (head, tail) := splitLast p
  let points := tail.takeWhile (· = '.')
  let name := tail.drop points.length
  let ext := (name.reverse.takeWhile (· ≠ '.')).reverse
  if ext.length = name.length then (p, "")
  else
    let kept := name.take (name.length - ext.length - 1)
    (String.ofList (head ++ points ++ kept), String.ofList ('.' :: ext))

/-- A path seen from a directory. -/
def join (directory p : String) : String :=
  if Text.beginsWith "/" p then p
  else if directory.isEmpty || Text.endsWith "/" directory then directory ++ p
  else directory ++ "/" ++ p

/-- The number of slashes that a path keeps at its beginning: two are kept, more count as one. -/
def leadingSlashes (p : String) : Nat :=
  match p.toList with
  | '/' :: '/' :: '/' :: _ => 1
  | '/' :: '/' :: _ => 2
  | '/' :: _ => 1
  | _ => 0

/-- Components without the empty ones, `.`, and each `..` with the component before it; `rooted`
says that there is nothing above the first. -/
def collapse (rooted : Bool) (parts : List String) : List String :=
  parts.foldl (fun kept part =>
    if part = "" || part = "." then kept
    else if part != ".." then kept ++ [part]
    else match kept.getLast? with
      | none => if rooted then [] else [".."]
      | some last => if last = ".." then kept ++ [part] else kept.dropLast) []

/-- The shortest text for a path, `..` being taken to undo the component before it. -/
def normalize (p : String) : String :=
  let slashes := leadingSlashes p
  let text := String.ofList (List.replicate slashes '/')
    ++ ofComponents (collapse (slashes > 0) (components p))
  if text.isEmpty then "." else text

end PathText

/-! ### Paths as components -/

/-- A path: the slashes at its beginning and its components, none of them empty or `.`. -/
structure Path where
  slashes : Nat
  parts : List String
deriving DecidableEq, Inhabited

namespace Path

/-- The path that a text spells. -/
def ofText (p : String) : Path :=
  ⟨PathText.leadingSlashes p, (PathText.components p).filter fun c => c != "" && c != "."⟩

/-- The text of a path. -/
def toText (p : Path) : String :=
  let text := String.ofList (List.replicate p.slashes '/') ++ PathText.ofComponents p.parts
  if text.isEmpty then "." else text

/-- The path begins at the root. -/
def isAbsolute (p : Path) : Bool := p.slashes > 0

/-- A path seen from a directory. -/
def join (directory p : Path) : Path :=
  if p.isAbsolute then p else ⟨directory.slashes, directory.parts ++ p.parts⟩

/-- The last component, empty if there is none. -/
def name (p : Path) : String := p.parts.getLast?.getD ""

/-- The extension of a file name with its point: what begins at the last point, unless that is the
first or the last character. -/
def suffixOf (name : String) : String :=
  let cs := name.toList
  let ext := (cs.reverse.takeWhile (· ≠ '.')).reverse
  if ext.isEmpty || ext.length + 1 ≥ cs.length then ""
  else String.ofList ('.' :: ext)

/-- The extension of the last component. -/
def suffix (p : Path) : String := suffixOf p.name

/-- What is left of a path behind the directory, if it lies there by its spelling. -/
def relativeTo? (p directory : Path) : Option Path :=
  if p.slashes = directory.slashes && directory.parts.isPrefixOf p.parts then
    some ⟨0, p.parts.drop directory.parts.length⟩
  else none

/-- The components of a path from the root on, with `..` collapsed, seen from `here`. -/
def absoluteParts (here : List String) (p : Path) : List String :=
  PathText.collapse true (if p.isAbsolute then p.parts else here ++ p.parts)

/-- The longest list that both begin with. -/
def commonPrefix : List String → List String → List String
  | a :: as, b :: bs => if a = b then a :: commonPrefix as bs else []
  | _, _ => []

/-- The way from a directory to a path, up by `..` and down again. -/
def wayTo (here : List String) (p directory : Path) : Path :=
  let target := absoluteParts here p
  let start := absoluteParts here directory
  let shared := (commonPrefix start target).length
  ⟨0, List.replicate (start.length - shared) ".." ++ target.drop shared⟩

/-- The path of a file as seen from the root of its repository: what is left behind the root by its
spelling, and otherwise the way from the root to the file.  `here` is the current directory. -/
def inRepository (here : List String) (file root : Path) : String :=
  match file.relativeTo? root with
  | some rest => rest.toText
  | none => (wayTo here file root).toText

end Path

end CodeAtlas
