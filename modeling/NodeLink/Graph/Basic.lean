import NodeLink.Graph.Kind
import NodeLink.Value

/-!
# Graphs

A graph has a title, nodes in the order in which their ids first came up, and edges in order. A node
that is put in again replaces the record of its id and keeps the old place, with the id as it came up
first. An edge needs both its end nodes, and an edge whose id is taken gets the first free numbered one.
-/

namespace NodeLink

def defaultTitle : String := "Graph Diagram"
def defaultSize : Nat := 10
def defaultColor : String := "#666"

/-- A circle of the diagram. Its position is null until it is placed. -/
structure Node where
  id : Json
  label : Json
  size : Json := .whole defaultSize
  color : Json := .text defaultColor
  icon : Json := .null
  x : Json := .null
  y : Json := .null

/-- A connection from one node to another. The curvature fans out edges between the same nodes. -/
structure Edge where
  id : Json
  source : Json
  target : Json
  label : Json := .null
  size : Json := .whole 1
  kind : EdgeKind := .line
  color : Json := .null
  curvature : Value := .real 0.0

/-- A node in its place, under the id with which the place was taken. -/
structure Slot where
  id : Json
  node : Node

structure Graph where
  title : Json := .text defaultTitle
  slots : List Slot := []
  edges : List Edge := []

namespace Node

/-- The node with the given fields. Without a label it shows its id. -/
def made (id label size color icon x y : Json) : Node :=
  { id, label := if label.isNull then id else label, size, color, icon, x, y }

/-- A node with nothing but an id, which is its label too. -/
def ofId (id : Json) : Node := { id := id, label := id }

def hasPosition (n : Node) : Bool := !n.x.isNull && !n.y.isNull

/-- Equal in every field. -/
def same (a b : Node) : Bool :=
  a.id.same b.id && a.label.same b.label && a.size.same b.size && a.color.same b.color &&
    a.icon.same b.icon && a.x.same b.x && a.y.same b.y

def shown (n : Node) : String :=
  "<Node id=" ++ Fault.textOf n.id ++ " size=" ++ Fault.textOf n.size ++ " color='" ++
    Fault.textOf n.color ++ "'>"

end Node

namespace Edge

/-- The id of an edge that is given none: its two ends. -/
def derivedId (source target : Json) : String := Fault.textOf source ++ "-" ++ Fault.textOf target

/-- The edge with the given fields. Without an id it gets the derived one. -/
def made (source target label size : Json) (kind : EdgeKind) (id color : Json) : Edge :=
  { id := id.orElse (.text (derivedId source target)), source, target, label, size, kind, color }

def directed (e : Edge) : Bool := e.kind.endArrow

/-- Equal in every field but the curvature. -/
def same (a b : Edge) : Bool :=
  a.id.same b.id && a.source.same b.source && a.target.same b.target && a.label.same b.label &&
    a.size.same b.size && a.kind == b.kind && a.color.same b.color

def shown (e : Edge) : String :=
  "<Edge " ++ Fault.textOf e.source ++ " -> " ++ Fault.textOf e.target ++ " kind=" ++ e.kind.name ++
    " label='" ++ Fault.textOf e.label ++ "'>"

/-- The derived id with a number after it. -/
def numberedId (e : Edge) (n : Nat) : String := derivedId e.source e.target ++ "#" ++ toString n

end Edge

namespace Graph

def nodes (g : Graph) : List Node := g.slots.map (·.node)

/-- The graph with other records in the places of its nodes. -/
def withNodes (g : Graph) (nodes : List Node) : Graph :=
  { g with slots := g.slots.zipWith (fun slot n => { slot with node := n }) nodes }

/-- The key of a value that names a node or an edge. -/
def keyOf (id : Json) : Except Fault Key :=
  match id.key? with
  | some key => .ok key
  | none => .error (.misfit (.key id.sort))

/-- The place of a key among places. -/
def slotOf? (slots : List Slot) (key : Key) : Option Slot := slots.find? fun slot => slot.id.key? == some key

def find? (g : Graph) (key : Key) : Option Node := (slotOf? g.slots key).map (·.node)

def hasNode (g : Graph) (id : Json) : Except Fault Bool := do return (g.find? (← keyOf id)).isSome

/-- Puts a node in the place of its key, or in a new place at the end. -/
def putNode (key : Key) (n : Node) : List Slot → List Slot
  | [] => [⟨n.id, n⟩]
  | slot :: slots =>
    if slot.id.key? = some key then { slot with node := n } :: slots else slot :: putNode key n slots

def addNode (g : Graph) (n : Node) : Except Fault Graph := do
  let key ← keyOf n.id
  return { g with slots := putNode key n g.slots }

def hasEdgeKey (g : Graph) (key : Key) : Bool := g.edges.any fun e => e.id.key? == some key

/-- The first of the numbers 2, 3, … whose id is free. One of the first `edges.length + 1` is. -/
def freeNumber (g : Graph) (e : Edge) : Nat :=
  let numbers := (List.range (g.edges.length + 1)).map (· + 2)
  (numbers.find? fun n => !g.hasEdgeKey (.text (e.numberedId n))).getD (g.edges.length + 3)

/-- The edge with the id it gets in the graph. -/
def named (g : Graph) (e : Edge) : Except Fault Edge := do
  let key ← keyOf e.id
  if g.hasEdgeKey key then return { e with id := .text (e.numberedId (g.freeNumber e)) } else return e

/-- Adds an edge between two nodes of the graph, and says which edge was added. -/
def addEdge (g : Graph) (e : Edge) : Except Fault (Graph × Edge) := do
  unless ← g.hasNode e.source do throw (.missingSource e.source)
  unless ← g.hasNode e.target do throw (.missingTarget e.target)
  let e ← g.named e
  return ({ g with edges := g.edges ++ [e] }, e)

def edgesBetween (g : Graph) (source target : Json) : List Edge :=
  g.edges.filter fun e => e.source.equal source && e.target.equal target

def shown (g : Graph) : String :=
  "<GraphModel title='" ++ Fault.textOf g.title ++ "' nodes=" ++ toString g.slots.length ++ " edges=" ++
    toString g.edges.length ++ ">"

end Graph
end NodeLink
