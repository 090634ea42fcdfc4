import CodeAtlas.Architecture.Component
import CodeAtlas.Export.Record

/-!
# Architectures as JSON
-/

namespace CodeAtlas

/-- A component as JSON. -/
def Component.toJson (c : Component) : Json :=
  .obj [("name", .str c.name), ("type", .str c.type.name), ("files", .strings c.files),
    ("dependencies", .strings c.dependencies), ("dependents", .strings c.dependents),
    ("complexity", .int c.complexity), ("description", .str c.description),
    ("patterns", .strings c.patterns)]

/-- A relationship as JSON. -/
def Relationship.toJson (r : Relationship) : Json :=
  .obj [("source", .str r.source), ("target", .str r.target), ("kind", .str r.kind.name),
    ("strength", .float r.strength), ("weight", .int r.weight)]

/-- A layer as JSON. -/
def Layer.toJson (l : Layer) : Json :=
  .obj [("name", .str l.name), ("components", .strings l.components),
    ("responsibility", .str l.responsibility)]

/-- A practice as JSON. -/
def Pattern.toJson (p : Pattern) : Json :=
  .obj [("name", .str p.name), ("confidence", .float p.confidence), ("files", .strings p.files),
    ("description", .str p.description)]

/-- An architecture as JSON. -/
def Architecture.toJson (a : Architecture) : Json :=
  .obj [("components", .arr (a.components.map (·.toJson))),
    ("relationships", .arr (a.relationships.map (·.toJson))),
    ("layers", .arr (a.layers.map (·.toJson))),
    ("patterns", .arr (a.patterns.map (·.toJson)))]

end CodeAtlas
