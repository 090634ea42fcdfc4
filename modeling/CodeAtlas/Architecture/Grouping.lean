import CodeAtlas.Architecture.Detector
import CodeAtlas.Architecture.Graph
import CodeAtlas.Resolution

/-!
# Grouping files into components

Files are taken in the order of their paths.  Those of one directory form a component, and a
component depends on another when one of its files imports from it or extends a class of it.
-/

namespace CodeAtlas

namespace Architecture

/-- Files in the order of their paths. -/
def sortFiles (files : List FileRecord) : List FileRecord :=
  files.mergeSort fun a b => a.path ≤ b.path

/-- The names of the components of files, in the order in which they first occur. -/
def componentNames (files : List FileRecord) : List String :=
  (files.map fun f => Component.nameOf f.path).eraseDups

/-- The files of a component. -/
def filesOf (name : String) (files : List FileRecord) : List FileRecord :=
  files.filter fun f => Component.nameOf f.path == name

/-- The component of the given files, without those that depend on it. -/
def component (detectors : List Detector) (name : String) (files : List FileRecord) : Component :=
  let paths := files.map (·.path)
  { name
    type := ComponentType.ofPaths paths
    files := paths
    dependencies := (files.flatMap (·.dependencies)).eraseDups
    dependents := []
    complexity := integerSum (files.map (·.complexity.cyclomatic))
    description := Component.describe name files
    patterns := detectors.flatMap (Detector.tags files) }

/-- The components of files that are in order. -/
def componentsOf (detectors : List Detector) (files : List FileRecord) : List Component :=
  (componentNames files).map fun name => component detectors name (filesOf name files)

/-! ### Relationships -/

/-- One reason for a relationship. -/
structure Occurrence where
  source : String
  target : String
  kind : RelationshipKind
deriving DecidableEq, Inhabited

/-- The file of a superclass: where the import that binds its name leads, or what its name matches
if no import does. -/
def superclassFile? (resolver : Resolver) (file : FileRecord) (name : String) : Option String :=
  match file.imports.find? (·.names.contains name) with
  | some i => resolver.resolve? i.module (some file.path)
  | none => resolver.resolve? name (some file.path)

/-- The superclasses of a file that are not declared in it. -/
def foreignSuperclasses (file : FileRecord) : List String :=
  let own := file.classes.map (·.name)
  (file.classes.filterMap (·.superclass)).filter fun s => s != "" && !own.contains s

/-- An occurrence, unless it stays within a component. -/
def occurrence? (file : FileRecord) (kind : RelationshipKind) (targetFile : String) :
    Option Occurrence :=
  let source := Component.nameOf file.path
  let target := Component.nameOf targetFile
  if target = source then none else some ⟨source, target, kind⟩

/-- The occurrences of relationships in a file: for every import, then for every superclass. -/
def occurrencesIn (resolver : Resolver) (file : FileRecord) : List Occurrence :=
  (file.imports.filterMap fun i =>
      (resolver.resolve? i.module (some file.path)).bind (occurrence? file .importing))
    ++ (foreignSuperclasses file).filterMap fun s =>
      (superclassFile? resolver file s).bind (occurrence? file .extending)

/-- The relationship stands for the occurrence. -/
def standsFor (r : Relationship) (o : Occurrence) : Bool :=
  r.source == o.source && r.target == o.target && r.kind == o.kind

/-- Counts an occurrence: at the relationship that stands for it, or at a new one. -/
def count (found : List Relationship) (o : Occurrence) : List Relationship :=
  if found.any (standsFor · o) then
    found.map fun r => if standsFor r o then { r with weight := r.weight + 1 } else r
  else found ++ [⟨o.source, o.target, o.kind, o.kind.strength, 1⟩]

/-- The relationships between the components of files. -/
def relationshipsOf (resolver : Resolver) (files : List FileRecord) : List Relationship :=
  (files.flatMap (occurrencesIn resolver)).foldl count []

/-! ### Layers -/

/-- The layers with the types of their components and their responsibilities. -/
def layerRules : List (String × List ComponentType × String) :=
  [("Presentation", [.page, .component], "User interface and presentation logic"),
    ("Business Logic", [.service], "Core business logic and data processing"),
    ("Data Access", [.api], "API endpoints and data access")]

/-- The layers that have components. -/
def layersOf (components : List Component) : List Layer :=
  layerRules.filterMap fun (name, types, responsibility) =>
    let members := (components.filter (types.contains ·.type)).map (·.name)
    if members.isEmpty then none else some ⟨name, members, responsibility⟩

/-- The architecture of a repository with the given files. -/
def ofFiles (detectors : List Detector) (files : List FileRecord) : Architecture :=
  let ordered := sortFiles files
  let parts := componentsOf detectors ordered
  let links := relationshipsOf (Resolver.ofPaths (ordered.map (·.path))) ordered
  let graph := ComponentGraph.ofArchitecture parts links
  let parts := parts.map fun c => { c with dependents := graph.dependents c.name }
  { components := parts
    relationships := links
    layers := layersOf parts
    patterns := detectors.filterMap (Detector.detect ordered) }

end Architecture

end CodeAtlas
