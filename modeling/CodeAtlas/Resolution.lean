import CodeAtlas.Dialect

/-!
# Resolving imports

A specifier is matched against the set of analysed files by its text alone.  A relative specifier is
looked up from the directory of the importing file and one that begins with a slash from the root;
whatever is not found there is compared with every path: for equality, then as the end of a path,
then as a part of one, then by base name.  In each comparison the least path wins.
-/

namespace CodeAtlas

/-- A path without its extension, if that is one of a dialect. -/
def stripExtension (p : String) : String :=
  let (stem, ext) := PathText.splitExtension p
  if Dialect.supportedExtensions.contains (Text.lower ext) then stem else p

/-- The paths against which specifiers are matched: each once and in order. -/
structure Resolver where
  paths : List String
deriving DecidableEq, Inhabited

namespace Resolver

/-- The resolver for a collection of paths. -/
def ofPaths (paths : List String) : Resolver := ⟨paths.eraseDups.mergeSort (· ≤ ·)⟩

/-- The keys under which a path is found when its extension is left out: the path itself and, for an
index file, its directory. -/
def keysOf (path : String) : List String :=
  let stem := stripExtension path
  if PathText.basename stem = "index" then [stem, PathText.dirname stem] else [stem]

/-- Adds a key unless there is an entry for it. -/
def addKey (path : String) (found : List (String × String)) (key : String) :
    List (String × String) :=
  if found.any (·.1 == key) then found else found ++ [(key, path)]

/-- Every key with the path that it stands for: the first one that has the key. -/
def moduleMap (r : Resolver) : List (String × String) :=
  r.paths.foldl (fun found path => (keysOf path).foldl (addKey path) found) []

/-- The path that a key stands for. -/
def forKey? (r : Resolver) (key : String) : Option String :=
  r.paths.find? fun path => (keysOf path).contains key

/-- The path that a normalized target stands for: the target itself or what its stem is a key of.
Nothing lies above the root, and the root itself is no file. -/
def lookup? (r : Resolver) (target : String) : Option String :=
  if Text.beginsWith ".." target || target = "." then none
  else if r.paths.contains target then some target
  else r.forKey? (stripExtension target)

/-- The components of a specifier that name something. -/
def needle (specifier : String) : String :=
  PathText.ofComponents
    ((PathText.components specifier).filter fun c => !(["", ".", ".."].contains c))

/-- The path is the needle, with or without an extension. -/
def equals (needle path : String) : Bool :=
  path = needle || stripExtension path = stripExtension needle

/-- The path ends with the needle, with or without an extension. -/
def endsWith (needle path : String) : Bool :=
  Text.endsWith ("/" ++ needle) path
    || Text.endsWith ("/" ++ stripExtension needle) (stripExtension path)

/-- The path has the base name of the needle, with or without an extension. -/
def sharesBase (needle path : String) : Bool :=
  let base := PathText.basename needle
  let own := PathText.basename path
  own = base || stripExtension own = stripExtension base

/-- The path that a specifier matches by its text. -/
def matchText? (r : Resolver) (specifier : String) : Option String :=
  let n := needle specifier
  if n = "" then none
  else
    (r.paths.find? (equals n)).or <| (r.paths.find? (endsWith n)).or <|
      (r.paths.find? (Text.occursIn n)).or <| r.paths.find? (sharesBase n)

/-- The specifier is relative to the file that imports it. -/
def isRelative (specifier : String) : Bool := Text.beginsWith "." specifier

/-- The specifier begins at the root. -/
def isRooted (specifier : String) : Bool := Text.beginsWith "/" specifier

/-- The specifier may stand for one of the files. -/
def isInternal (r : Resolver) (specifier : String) : Bool :=
  specifier != "" &&
    (isRelative specifier || isRooted specifier || (r.matchText? specifier).isSome)

/-- Where a relative specifier leads from the directory of the importing file. -/
def targetFrom (importer specifier : String) : String :=
  PathText.normalize (PathText.join (PathText.dirname importer) specifier)

/-- Where a specifier that begins at the root leads. -/
def targetFromRoot (specifier : String) : String :=
  PathText.normalize (Text.dropLeading '/' specifier)

/-- The file that a specifier stands for, if it is one of the files. -/
def resolve? (r : Resolver) (specifier : String) (importer : Option String) : Option String :=
  if specifier = "" then none
  else
    let direct :=
      match importer with
      | some file =>
        if isRelative specifier then r.lookup? (targetFrom file specifier)
        else if isRooted specifier then r.lookup? (targetFromRoot specifier)
        else none
      | none => if isRooted specifier then r.lookup? (targetFromRoot specifier) else none
    direct.or (r.matchText? specifier)

end Resolver

end CodeAtlas
