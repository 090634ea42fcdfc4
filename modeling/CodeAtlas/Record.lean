import CodeAtlas.Number.Binary64

/-!
# Records of analysed files

What is known about one source file: the functions and classes that it declares, what it imports and
exports, and how complex it is.  Lines count from one.
-/

namespace CodeAtlas

/-- The name of what has none. -/
def anonymousName : String := "anonymous"

/-- A named function, or one that is bound to a name. -/
structure FunctionRecord where
  name : String
  line : Int
  endLine : Int
  parameters : List String
  complexity : Int
  calls : List String
  calledBy : List String
  callGraphResolved : Bool
deriving DecidableEq, Inhabited

/-- Who may access a member of a class. -/
inductive Visibility where
  | isPublic
  | isPrivate
  | isProtected
deriving DecidableEq, Inhabited

/-- What kind of method a member is. -/
inductive MethodKind where
  | method
  | getter
  | setter
  | constructor
deriving DecidableEq, Inhabited

/-- A method of a class. -/
structure MethodRecord extends FunctionRecord where
  visibility : Visibility
  isStatic : Bool
  kind : MethodKind
deriving DecidableEq, Inhabited

/-- A field of a class. -/
structure PropertyRecord where
  name : String
  line : Int
  visibility : Visibility
  isStatic : Bool
deriving DecidableEq, Inhabited

/-- A class. -/
structure ClassRecord where
  name : String
  line : Int
  endLine : Int
  methods : List MethodRecord
  properties : List PropertyRecord
  superclass : Option String
  interfaces : List String
  complexity : Int
deriving DecidableEq, Inhabited

/-- An import, with the names that it binds. -/
structure ImportRecord where
  module : String
  names : List String
  line : Int
  isDefault : Bool
deriving DecidableEq, Inhabited

/-- What an exported name stands for. -/
inductive ExportKind where
  | function
  | classType
  | binding
  | byDefault
deriving DecidableEq, Inhabited

/-- An exported name. -/
structure ExportRecord where
  name : String
  line : Int
  kind : ExportKind
deriving DecidableEq, Inhabited

/-- The complexity of a file. -/
structure ComplexityRecord where
  cyclomatic : Int
  cognitive : Int
  maintainability : Double
deriving DecidableEq, Inhabited

/-- Everything that is known about one file. -/
structure FileRecord where
  path : String
  language : String
  size : Int
  lines : Int
  functions : List FunctionRecord
  classes : List ClassRecord
  imports : List ImportRecord
  exports : List ExportRecord
  complexity : ComplexityRecord
  dependencies : List String
  commitCount : Option Int
deriving DecidableEq, Inhabited

namespace Visibility

/-- The word for a visibility. -/
def name : Visibility → String
  | isPublic => "public"
  | isPrivate => "private"
  | isProtected => "protected"

/-- The visibility that a word stands for. -/
def ofName? : String → Option Visibility
  | "public" => some isPublic
  | "private" => some isPrivate
  | "protected" => some isProtected
  | _ => none

end Visibility

namespace MethodKind

/-- The word for a kind of method. -/
def name : MethodKind → String
  | method => "method"
  | getter => "get"
  | setter => "set"
  | constructor => "constructor"

end MethodKind

namespace ExportKind

/-- The word for what a name stands for. -/
def name : ExportKind → String
  | function => "function"
  | classType => "class"
  | binding => "variable"
  | byDefault => "default"

/-- What a word stands for. -/
def ofName? : String → Option ExportKind
  | "function" => some function
  | "class" => some classType
  | "variable" => some binding
  | "default" => some byDefault
  | _ => none

end ExportKind

end CodeAtlas
