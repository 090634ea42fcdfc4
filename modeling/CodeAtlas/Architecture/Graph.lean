import CodeAtlas.Architecture.Component
import CodeAtlas.Json.Value
import CodeAtlas.Slice

/-!
# Graphs of components

A directed graph whose nodes are names.  There is one edge for each ordered pair of names; what is
added for a pair again raises the weight of its edge and adds its kind.
-/

namespace CodeAtlas

/-- A weight: a whole number, or one with a fraction. -/
inductive Weight where
  | whole (n : Int)
  | real (x : Double)
deriving DecidableEq, Inhabited

namespace Weight

/-- The weight as a floating-point number. -/
def toDouble : Weight → Double
  | whole n => Double.ofInt n
  | real x => x

/-- The sum of two weights: whole if both are. -/
def add : Weight → Weight → Weight
  | whole a, whole b => whole (a + b)
  | a, b => real (a.toDouble.add b.toDouble)

/-- A weight as JSON. -/
def toJson : Weight → Json
  | whole n => .int n
  | real x => .float x

end Weight

/-- What is noted at a node or an edge, by key. -/
abbrev Attributes := List (String × Json)

namespace Attributes

/-- Sets one attribute; a new key comes last. -/
def set (key : String) (value : Json) : Attributes → Attributes
  | [] => [(key, value)]
  | (k, v) :: rest => if k = key then (key, value) :: rest else (k, v) :: set key value rest

/-- Sets every attribute of the second list. -/
def merge (old new : Attributes) : Attributes :=
  new.foldl (fun found (k, v) => set k v found) old

/-- The key under which the weight of a relationship is given. -/
def weightKey : String := "weight"

/-- The weight that is given, or one if none is. -/
def weight (given : Attributes) : Weight :=
  match given.lookup weightKey with
  | some (.int n) => .whole n
  | some (.float x) => .real x
  | _ => .whole 1

/-- What is given apart from the weight. -/
def withoutWeight (given : Attributes) : Attributes := given.filter (·.1 != weightKey)

end Attributes

/-- An edge with the kinds of relationship that it stands for. -/
structure Edge where
  source : String
  target : String
  kinds : List String
  weight : Weight
  attributes : Attributes
deriving Inhabited

/-- A directed graph of named nodes. -/
structure ComponentGraph where
  nodes : List (String × Attributes)
  edges : List Edge
deriving Inhabited

namespace ComponentGraph

/-- The graph without nodes. -/
def empty : ComponentGraph := ⟨[], []⟩

/-- The names of the nodes. -/
def names (g : ComponentGraph) : List String := g.nodes.map Prod.fst

/-- The edge from one node to another. -/
def edge? (g : ComponentGraph) (source target : String) : Option Edge :=
  g.edges.find? fun e => e.source == source && e.target == target

/-- Adds a node, or sets attributes of one that is there. -/
def addNode (g : ComponentGraph) (name : String) (attributes : Attributes) : ComponentGraph :=
  if g.names.contains name then
    { g with nodes := g.nodes.map fun (n, old) =>
        if n = name then (n, Attributes.merge old attributes) else (n, old) }
  else { g with nodes := g.nodes ++ [(name, Attributes.merge [] attributes)] }

/-- The edge joins the two nodes. -/
def Edge.joins (e : Edge) (source target : String) : Bool :=
  e.source == source && e.target == target

/-- An edge with one more occurrence. -/
def Edge.raise (e : Edge) (kind : String) (weight : Weight) : Edge :=
  { e with
    kinds := if e.kinds.contains kind then e.kinds else e.kinds ++ [kind]
    weight := e.weight.add weight }

/-- Adds a relationship; the attributes count only if it is the first for its pair. -/
def addRelationship (g : ComponentGraph) (source target kind : String) (weight : Weight)
    (attributes : Attributes) : ComponentGraph :=
  if (g.edge? source target).isSome then
    { g with edges := g.edges.map fun e =>
        if Edge.joins e source target then Edge.raise e kind weight else e }
  else
    let g := (g.addNode source []).addNode target []
    { g with edges := g.edges ++ [⟨source, target, [kind], weight, attributes⟩] }

/-- Adds a relationship with what is given for it; its weight may be among that. -/
def relate (g : ComponentGraph) (source target kind : String) (given : Attributes) :
    ComponentGraph :=
  g.addRelationship source target kind given.weight given.withoutWeight

/-- The graph of components and their relationships. -/
def ofArchitecture (components : List Component) (relationships : List Relationship) :
    ComponentGraph :=
  let g := components.foldl (fun g c => g.addNode c.name [("type", .str c.type.name)]) empty
  relationships.foldl (fun g r =>
    g.addRelationship r.source r.target r.kind.name (.whole r.weight)
      [("strength", .float r.strength)]) g

/-- The names, in order and each once. -/
def sortedNames (names : List String) : List String := names.eraseDups.mergeSort (· ≤ ·)

/-- The nodes to which edges lead from a node. -/
def successors (g : ComponentGraph) (name : String) : List String :=
  (g.edges.filter (·.source == name)).map (·.target)

/-- The nodes from which edges lead to a node. -/
def predecessors (g : ComponentGraph) (name : String) : List String :=
  (g.edges.filter (·.target == name)).map (·.source)

/-- Along which edges neighbours are looked for. -/
inductive Direction where
  | outward
  | inward
  | both
deriving DecidableEq, Inhabited

/-- The neighbours of a node, in order. -/
def neighbors (g : ComponentGraph) (name : String) : Direction → List String
  | .outward => sortedNames (g.successors name)
  | .inward => sortedNames (g.predecessors name)
  | .both => sortedNames (g.successors name ++ g.predecessors name)

/-- The nodes that depend on a node. -/
def dependents (g : ComponentGraph) (name : String) : List String := g.neighbors name .inward

/-! ### Cycles -/

/-- Cycles of more nodes than this are not looked for. -/
def maxCycleLength : Nat := 6

/-- No more cycles than this are ranked. -/
def maxCycles : Nat := 500

/-- The cycles that begin with `path`, which is reversed and starts at `start`, and go on over at
most `fuel` more nodes, all of them greater than `start`. -/
def cyclesThrough (g : ComponentGraph) (start : String) : Nat → List String → List (List String)
  | fuel, path =>
    let here := path.headD start
    let next := sortedNames (g.successors here)
    let closed := if next.contains start then [path.reverse] else []
    match fuel with
    | 0 => closed
    | fuel + 1 =>
      closed ++ (next.filter fun n => start < n && !path.contains n).flatMap fun n =>
        cyclesThrough g start fuel (n :: path)

/-- The elementary cycles of bounded length, each once. -/
def elementaryCycles (g : ComponentGraph) : List (List String) :=
  g.names.flatMap fun start => cyclesThrough g start (maxCycleLength - 1) [start]

/-- One list of names comes before another: if it is shorter, or if it is as long and the first name
in which they differ is less. -/
def shorterOrLess (a b : List String) : Bool :=
  a.length < b.length || (a.length = b.length && !List.lex b a fun x y => x < y)

/-- A cycle from its least name on. -/
def fromLeast (cycle : List String) : List String :=
  let start := cycle.findIdx fun name => cycle.all fun other => name ≤ other
  cycle.drop start ++ cycle.take start

/-- The cycles that have been found, each from its least name on and shorter ones first. -/
def rankCycles (limit : Int) (found : List (List String)) : List (List String) :=
  slice limit (((found.take maxCycles).map fromLeast).mergeSort shorterOrLess)

/-- The cycles among the components, shorter ones first. -/
def findCycles (g : ComponentGraph) (limit : Int) : List (List String) :=
  rankCycles limit g.elementaryCycles

end ComponentGraph

end CodeAtlas
