import CodeAtlas.Number.Sum
import CodeAtlas.Extraction.Callable

/-!
# Classes in a syntax tree

Every declared class is recorded, and a class expression if it is exported by default.
-/

namespace CodeAtlas.Extraction

open CodeAtlas.Syntax

/-- The name of a member and the visibility that it implies. -/
def memberName (name : Option Node) : String × Option Visibility :=
  match name with
  | none => (anonymousName, none)
  | some n =>
    if n.isRule .privatePropertyIdentifier then (n.text, some .isPrivate)
    else if n.isAmong [.propertyIdentifier, .identifier] then (n.text, none)
    else (anonymousName, none)

/-- The visibility that is written at a member. -/
def writtenVisibility (member : Node) : Option Visibility :=
  (member.children.find? (·.isRule .accessibilityModifier)).bind fun n => Visibility.ofName? n.text

/-- The kind of a method of a given name. -/
def methodKind (member : Node) (name : String) : MethodKind :=
  if member.hasToken "get" then .getter
  else if member.hasToken "set" then .setter
  else if name == "constructor" then .constructor
  else .method

/-- The record of a method. -/
def methodRecord (member : Node) : MethodRecord :=
  let (name, implied) := memberName (member.child? .name)
  let kind := methodKind member name
  let visibility :=
    match kind with
    | .getter | .setter => .isPublic
    | _ => ((writtenVisibility member).or implied).getD .isPublic
  { functionRecord member name with visibility, isStatic := member.hasToken "static", kind }

/-- The record of a field. -/
def propertyRecord (member : Node) : PropertyRecord :=
  let (name, implied) := memberName ((member.child? .property).or (member.child? .name))
  ⟨name, member.line, ((writtenVisibility member).or implied).getD .isPublic,
    member.hasToken "static"⟩

/-- The text of a type without its arguments. -/
def typeName (type : Node) : String :=
  if type.isRule .genericType then ((type.child? .name).getD type).text else type.text

/-- The superclass of a class, if it is a plain name, and the interfaces that it implements. -/
def heritage (class_ : Node) : Option String × List String :=
  match class_.children.find? (·.isRule .classHeritage) with
  | none => (none, [])
  | some clause =>
    clause.namedChildren.foldl (fun (superclass, interfaces) child =>
      if child.isRule .extendsClause then
        match child.child? .value with
        | some value =>
          (if value.isRule .identifier then some value.text else superclass, interfaces)
        | none => (superclass, interfaces)
      else if child.isRule .implementsClause then
        (superclass, interfaces ++ child.namedChildren.map typeName)
      else if child.isRule .identifier && superclass.isNone then (some child.text, interfaces)
      else (superclass, interfaces)) (none, [])

/-- The named members of a class. -/
def members (class_ : Node) : List Node :=
  ((class_.child? .body).map (·.namedChildren)).getD []

/-- The record of a class. -/
def classRecord (class_ : Node) : ClassRecord :=
  let (superclass, interfaces) := heritage class_
  let methods := ((members class_).filter (·.isRule .methodDefinition)).map methodRecord
  let properties := ((members class_).filter
    (·.isAmong [.fieldDefinition, .publicFieldDefinition])).map propertyRecord
  ⟨((class_.child? .name).map (·.text)).getD anonymousName, class_.line, class_.endLine, methods,
    properties, superclass, interfaces, integerSum (methods.map (·.complexity))⟩

/-- The rules of classes that are declared. -/
def declaredClassRules : List Rule := [.classDeclaration, .abstractClassDeclaration]

/-- The class at a site is recorded. -/
def recordsClass (s : Site) : Bool :=
  s.node.isAmong declaredClassRules || (s.node.isRule .classExpression && isDefaultExport s)

/-- The classes that are recorded at a site. -/
def classesAt (s : Site) : List ClassRecord :=
  if recordsClass s then [classRecord s.node] else []

end CodeAtlas.Extraction
