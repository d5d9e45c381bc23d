import NodeLink.Graph.Basic

/-!
# Canvases

An interactive canvas is brought up to date by a list of calls: it is cleared, all nodes and the edges
between them are added, and it is redrawn.
-/

namespace NodeLink

inductive CanvasCall where
  | clear
  | addNode (id : Json) (attributes : List (String × Json))
  | addEdge (source target : Json) (attributes : List (String × Json))
  | refresh

namespace CanvasCall

/-- The larger of a floor and a size, the floor if they are equal. -/
def atLeast (floor : Int) (size : Json) : Except Fault Json := do
  return if ← Scalar.gt (.ofJson size) (.whole floor : Value) then size else .whole floor

def ofNode (n : Node) : Except Fault CanvasCall := do
  let size ← atLeast 5 n.size
  return .addNode n.id [("label", n.label), ("size", size), ("color", n.color), ("x", n.x), ("y", n.y),
    ("image", n.icon)]

def ofEdge (curved : Bool) (e : Edge) : Except Fault CanvasCall := do
  let size ← atLeast 1 e.size
  let kind := if curved then e.kind.asCurved else e.kind
  return .addEdge e.source e.target [("label", e.label.orElse (.text "")), ("size", size),
    ("color", e.color.orElse (.text "#999")), ("type", .text kind.name)]

end CanvasCall

namespace Graph

def isAnchored (g : Graph) (e : Edge) : Except Fault Bool := do
  if ← g.hasNode e.source then g.hasNode e.target else return false

/-- The call for an edge, none if one of its ends is missing. -/
def edgeCall? (g : Graph) (curved : Bool) (e : Edge) : Except Fault (Option CanvasCall) := do
  if ← g.isAnchored e then return some (← CanvasCall.ofEdge curved e) else return none

def canvasCalls (g : Graph) (curved : Bool) : Except Fault (List CanvasCall) := do
  let nodes ← g.nodes.mapM CanvasCall.ofNode
  let edges ← g.edges.mapM (g.edgeCall? curved)
  return .clear :: nodes ++ edges.filterMap id ++ [.refresh]

end Graph
end NodeLink
