import CodeAtlas.Record
import CodeAtlas.Json.Value

/-!
# File records as JSON

Every field of a record becomes a member of an object, in the order of the fields.  Sets are written
as their elements in order, each once.
-/

namespace CodeAtlas

namespace Json

/-- The elements of a set of names, in order, each once. -/
def nameSet (names : List String) : Json :=
  strings (names.eraseDups.mergeSort (· ≤ ·))

end Json

namespace FunctionRecord

/-- The members for the fields of a function. -/
def members (f : FunctionRecord) : List (String × Json) :=
  [("name", .str f.name), ("line", .int f.line), ("end_line", .int f.endLine),
    ("parameters", .strings f.parameters), ("complexity", .int f.complexity),
    ("calls", .nameSet f.calls), ("called_by", .nameSet f.calledBy),
    ("call_graph_resolved", .bool f.callGraphResolved)]

/-- A function as JSON. -/
def toJson (f : FunctionRecord) : Json := .obj f.members

end FunctionRecord

/-- A method as JSON. -/
def MethodRecord.toJson (m : MethodRecord) : Json :=
  .obj (m.toFunctionRecord.members ++
    [("visibility", .str m.visibility.name), ("is_static", .bool m.isStatic),
      ("kind", .str m.kind.name)])

/-- A field of a class as JSON. -/
def PropertyRecord.toJson (p : PropertyRecord) : Json :=
  .obj [("name", .str p.name), ("line", .int p.line), ("visibility", .str p.visibility.name),
    ("is_static", .bool p.isStatic)]

/-- A class as JSON. -/
def ClassRecord.toJson (c : ClassRecord) : Json :=
  .obj [("name", .str c.name), ("line", .int c.line), ("end_line", .int c.endLine),
    ("methods", .arr (c.methods.map (·.toJson))),
    ("properties", .arr (c.properties.map (·.toJson))),
    ("extends", .orNull .str c.superclass), ("implements", .strings c.interfaces),
    ("complexity", .int c.complexity)]

/-- An import as JSON. -/
def ImportRecord.toJson (i : ImportRecord) : Json :=
  .obj [("module", .str i.module), ("names", .strings i.names), ("line", .int i.line),
    ("is_default", .bool i.isDefault)]

/-- An export as JSON. -/
def ExportRecord.toJson (e : ExportRecord) : Json :=
  .obj [("name", .str e.name), ("line", .int e.line), ("kind", .str e.kind.name)]

/-- The complexity of a file as JSON. -/
def ComplexityRecord.toJson (c : ComplexityRecord) : Json :=
  .obj [("cyclomatic", .int c.cyclomatic), ("cognitive", .int c.cognitive),
    ("maintainability", .float c.maintainability)]

/-- A file as JSON. -/
def FileRecord.toJson (f : FileRecord) : Json :=
  .obj [("path", .str f.path), ("language", .str f.language), ("size", .int f.size),
    ("lines", .int f.lines), ("functions", .arr (f.functions.map (·.toJson))),
    ("classes", .arr (f.classes.map (·.toJson))), ("imports", .arr (f.imports.map (·.toJson))),
    ("exports", .arr (f.exports.map (·.toJson))), ("complexity", f.complexity.toJson),
    ("dependencies", .strings f.dependencies), ("commit_count", .orNull .int f.commitCount)]

end CodeAtlas
