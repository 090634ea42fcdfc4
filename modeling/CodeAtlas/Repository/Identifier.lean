import CodeAtlas.Path

/-!
# Identifiers of repositories

A repository is named by a local path or by the address of a remote one.
-/

namespace CodeAtlas

namespace Repository

/-- The identifier is the address of a remote repository. -/
def isRemote (identifier : String) : Bool :=
  Text.occursIn "://" identifier || Text.beginsWith "git@" identifier

/-- A list without the given end, if it has that end and more. -/
def dropEnd? (tail cs : List Char) : Option (List Char) :=
  if tail.isSuffixOf cs && tail.length < cs.length then some (cs.take (cs.length - tail.length))
  else none

/-- The name of a repository: the last component of its identifier without `.git` at its end, where
a line feed at the very end does not count.  An identifier of slashes alone is its own name. -/
def nameOf (identifier : String) : String :=
  let component := PathText.basename (Text.dropTrailing '/' identifier)
  if component.isEmpty then identifier
  else
    let cs := component.toList
    String.ofList (((dropEnd? ".git".toList cs).or (dropEnd? ".git\n".toList cs)).getD cs)

end Repository

end CodeAtlas
