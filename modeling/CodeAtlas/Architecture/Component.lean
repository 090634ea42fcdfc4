import CodeAtlas.Number.Sum
import CodeAtlas.Record
import CodeAtlas.Path

/-!
# Components

A component is a directory with the files that lie directly in it.  What it does is guessed from the
words in its paths.
-/

namespace CodeAtlas

/-- What a component does. -/
inductive ComponentType where
  | component
  | service
  | utility
  | page
  | api
deriving DecidableEq, Inhabited

namespace ComponentType

/-- The word for a type. -/
def name : ComponentType → String
  | component => "component"
  | service => "service"
  | utility => "utility"
  | page => "page"
  | api => "api"

/-- The type that a word stands for. -/
def ofName? : String → Option ComponentType
  | "component" => some component
  | "service" => some service
  | "utility" => some utility
  | "page" => some page
  | "api" => some api
  | _ => none

/-- The words that mark a type, in the order in which they are looked for. -/
def markers : List (List String × ComponentType) :=
  [(["api", "route"], api), (["page", "component"], page), (["service", "util"], service)]

/-- The type of a component with the given paths: the first one of which some path has a mark. -/
def ofPaths (paths : List String) : ComponentType :=
  let lowered := paths.map Text.lower
  match markers.find? fun (words, _) =>
      lowered.any fun path => words.any fun word => Text.occursIn word path with
  | some (_, type) => type
  | none => component

end ComponentType

/-- A component of a repository. -/
structure Component where
  name : String
  type : ComponentType
  files : List String
  dependencies : List String
  dependents : List String
  complexity : Int
  description : String
  patterns : List String
deriving DecidableEq, Inhabited

namespace Component

/-- The name of the component of the files at the root. -/
def rootName : String := "root"

/-- The name of the component of a file: the directory it lies in. -/
def nameOf (path : String) : String :=
  let directory := PathText.dirname path
  if directory = "" then rootName else directory

/-- A sentence about the size of a component. -/
def describe (name : String) (files : List FileRecord) : String :=
  let lines := integerSum (files.map (·.lines))
  let functions := sumOf (files.map (·.functions.length))
  let classes := sumOf (files.map (·.classes.length))
  name ++ " component with " ++ toString files.length ++ " files, " ++ toString lines ++ " lines, "
    ++ toString functions ++ " functions, and " ++ toString classes ++ " classes"

end Component

/-- Why one component depends on another. -/
inductive RelationshipKind where
  | importing
  | extending
deriving DecidableEq, Inhabited

namespace RelationshipKind

/-- The word for a kind of relationship. -/
def name : RelationshipKind → String
  | importing => "imports"
  | extending => "extends"

/-- The kind that a word stands for. -/
def ofName? : String → Option RelationshipKind
  | "imports" => some importing
  | "extends" => some extending
  | _ => none

/-- How strongly a relationship of this kind binds. -/
def strength : RelationshipKind → Double
  | importing => Double.ofRatio false 8 10
  | extending => Double.ofRatio false 9 10

end RelationshipKind

/-- A directed relationship between two components; the weight counts its occurrences. -/
structure Relationship where
  source : String
  target : String
  kind : RelationshipKind
  strength : Double
  weight : Int
deriving DecidableEq, Inhabited

/-- Components with a common responsibility. -/
structure Layer where
  name : String
  components : List String
  responsibility : String
deriving DecidableEq, Inhabited

/-- A practice that is found in some files. -/
structure Pattern where
  name : String
  confidence : Double
  files : List String
  description : String
deriving DecidableEq, Inhabited

/-- The architecture of a repository. -/
structure Architecture where
  components : List Component
  relationships : List Relationship
  layers : List Layer
  patterns : List Pattern
deriving DecidableEq, Inhabited

end CodeAtlas
