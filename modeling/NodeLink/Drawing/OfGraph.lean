import NodeLink.Drawing.Fan
import NodeLink.Drawing.Scene
import NodeLink.Notice

/-!
# The scene of a graph

Edges between the same nodes are fanned out first. A node without a position stands at the origin, and an
edge without both its nodes is not drawn.
-/

namespace NodeLink

namespace Node

/-- A coordinate; one that is not set is zero. -/
def coordinate (value : Json) : Value := if value.isNull then .real 0.0 else .ofJson value

def disc (n : Node) : Disc Value := ⟨⟨coordinate n.x, coordinate n.y⟩, .ofJson n.size⟩

def fallbackFill : Json := .text "#cccccc"

end Node

/-- A node in its place, as part of a scene. -/
def Slot.toScene (slot : Slot) : SceneNode Value where
  disc := slot.node.disc
  id := slot.id
  label := slot.node.label
  fill := slot.node.color.orElse Node.fallbackFill
  icon := slot.node.icon

namespace Edge

def defaultColor : Json := .text "currentColor"

end Edge

namespace Graph

def sceneEdge (style : Style Value) (index : Nat) (e : Edge) (source target : Node) : SceneEdge Value where
  index := index
  id := e.id
  source := source.disc
  target := target.disc
  kind := e.kind
  thickness := .ofJson e.size
  curvature := e.curvature
  label := e.label
  color := e.color.orElse (style.edgeColor.orElse Edge.defaultColor)

def node? (g : Graph) (id : Json) : Option Node := id.key?.bind g.find?

def sceneEdge? (g : Graph) (style : Style Value) (index : Nat) (e : Edge) : Option (SceneEdge Value) := do
  return sceneEdge style index e (← g.node? e.source) (← g.node? e.target)

/-- The edges of the scene from a place in the graph on. -/
def sceneEdgesFrom (g : Graph) (style : Style Value) : Nat → List Edge → List (SceneEdge Value)
  | _, [] => []
  | i, e :: rest => (g.sceneEdge? style i e).toList ++ sceneEdgesFrom g style (i + 1) rest

def scene (g : Graph) (style : Style Value) : Scene Value :=
  ⟨g.slots.map Slot.toScene, sceneEdgesFrom g style 0 g.edges⟩

/-- What comes of measuring a graph: a box or the fault that prevented it, and the graph as it is left. -/
structure Measured where
  box : Except Fault (Box Value)
  graph : Graph

/-- Finds the box of a graph's nodes, their captions and the edges, which fans out the edges. -/
def measure (g : Graph) (o : Options) : Measured :=
  match g.fanOutEdges with
  | .error fault => ⟨.error fault, g⟩
  | .ok g => ⟨(g.scene o.style).baseBox o.style, g⟩

def bounds (g : Graph) (o : Options) : Except Fault (Box Value) := (g.measure o).box

end Graph

/-- Notices about the edges that are left out. -/
def Scene.overlapNotices (clipped : List (ClippedEdge Value)) : List Notice :=
  (Scene.leftOut clipped).map fun e => .overlap e.id

end NodeLink
