import NodeLink.Graph.Basic
import NodeLink.Json.Writer

/-!
# Graph documents

A graph as a JSON document and back. A document may leave out everything but the ids of nodes and the
ends of edges; what is left out takes its default, and what is null stays null.
-/

namespace NodeLink

namespace Json

/-- The field of a record, or `other`; only records have fields. -/
def fieldOr (value : Json) (name : String) (other : Json) : Except Fault Json :=
  match value with
  | .record fields => .ok ((field? name fields).getD other)
  | value => .error (.noMember value.sort "get")

/-- The field of a record that has to be there. -/
def needField (value : Json) (name : String) : Except Fault Json :=
  match value with
  | .record fields => match field? name fields with
    | some found => .ok found
    | none => .error (.missingField name)
  | value => .error (.misfit (.field value.sort))

/-- The values that a value runs through: items of a list, names of a record, characters of a text. -/
def items? : Json → Except Fault (List Json)
  | .list items => .ok items
  | .record fields => .ok (fields.map fun field => .text field.1)
  | .text s => .ok (s.toList.map fun c => .text (String.singleton c))
  | value => .error (.misfit (.running value.sort))

def onlyFields (names : List String) : Json → Except Fault Unit
  | .record fields =>
    match fields.find? fun field => !names.contains field.1 with
    | some field => .error (.misfit (.unknownField field.1))
    | none => .ok ()
  | _ => .ok ()

end Json

namespace Node

def toJson (n : Node) : Json :=
  .record [("id", n.id), ("label", n.label), ("size", n.size), ("color", n.color), ("icon", n.icon),
    ("x", n.x), ("y", n.y)]

def ofJson (value : Json) : Except Fault Node := do
  let id ← value.needField "id"
  let label ← value.fieldOr "label" .null
  let size ← value.fieldOr "size" (.whole defaultSize)
  let color ← value.fieldOr "color" (.text defaultColor)
  let icon ← value.fieldOr "icon" .null
  let x ← value.fieldOr "x" .null
  let y ← value.fieldOr "y" .null
  return made id label size color icon x y

def ofFields (value : Json) : Except Fault Node := do
  discard (value.needField "id")
  value.onlyFields ["id", "label", "size", "color", "icon", "x", "y"]
  ofJson value

end Node

namespace Edge

def toJson (e : Edge) : Json :=
  .record [("id", e.id), ("source", e.source), ("target", e.target), ("label", e.label), ("size", e.size),
    ("type", .text e.kind.name), ("color", e.color)]

/-- An edge from its fields, with its kind under the given name. -/
def ofJsonWith (kindField : String) (value : Json) : Except Fault Edge := do
  let source ← value.needField "source"
  let target ← value.needField "target"
  let label ← value.fieldOr "label" .null
  let size ← value.fieldOr "size" (.whole 1)
  let kind ← EdgeKind.ofJson? (← value.fieldOr kindField (.text EdgeKind.line.name))
  let id ← value.fieldOr "id" .null
  let color ← value.fieldOr "color" .null
  return made source target label size kind id color

def ofJson : Json → Except Fault Edge := ofJsonWith "type"

def ofFields (value : Json) : Except Fault Edge := do
  discard (value.needField "source")
  discard (value.needField "target")
  value.onlyFields ["id", "source", "target", "label", "size", "kind", "color"]
  ofJsonWith "kind" value

end Edge

namespace Graph

def toJson (g : Graph) : Json :=
  .record [("title", g.title), ("nodes", .list (g.nodes.map Node.toJson)),
    ("edges", .list (g.edges.map Edge.toJson))]

/-- The graph of a document. A title that does not count as given is replaced by the default one. -/
def ofJson (value : Json) : Except Fault Graph := do
  let title ← value.fieldOr "title" .null
  let nodes ← (← value.fieldOr "nodes" (.list [])).items?
  let placed ← nodes.foldlM (fun g item => do g.addNode (← Node.ofJson item))
    { title := title.orElse (.text defaultTitle) : Graph }
  let edges ← (← value.fieldOr "edges" (.list [])).items?
  edges.foldlM (fun g item => do return (← g.addEdge (← Edge.ofJson item)).1) placed

def print (layout : Json.Layout) (g : Graph) : String := g.toJson.print layout

def read (text : List Char) : Except Fault Graph :=
  match Json.readAll text with
  | .error fault => .error (.ofRead fault text)
  | .ok value => ofJson value

def sameParts (a b : Graph) : Bool :=
  a.nodes.length == b.nodes.length && a.edges.length == b.edges.length &&
    (a.nodes.zip b.nodes).all (fun (m, n) => m.same n) &&
    (a.edges.zip b.edges).all (fun (d, e) => d.same e)

end Graph
end NodeLink
