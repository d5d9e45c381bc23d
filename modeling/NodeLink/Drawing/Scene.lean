import NodeLink.Drawing.Box
import NodeLink.Drawing.Caption
import NodeLink.Geometry.Outline

/-!
# Scenes

A scene is what a graph comes to when it is drawn: circles with captions, and edges between circles. The
extent of a scene takes in the circles, the captions of nodes, and both ends and the middle of every edge;
the final one takes in the captions of edges too. Texts and colours may be any values: what does not fit
fails where it is written.
-/

namespace NodeLink

open Scalar

structure SceneNode (α : Type) where
  disc : Disc α
  id : Json
  label : Json
  fill : Json
  icon : Json

structure SceneEdge (α : Type) where
  index : Nat
  id : Json
  source : Disc α
  target : Disc α
  kind : EdgeKind
  thickness : α
  curvature : α
  label : Json
  color : Json

structure Scene (α : Type) where
  nodes : List (SceneNode α)
  edges : List (SceneEdge α)

/-- An edge that is drawn, with its clipped centreline. -/
structure DrawnEdge (α : Type) where
  edge : SceneEdge α
  line : Centreline α

variable {α : Type} [Scalar α]

namespace SceneNode

def addCaption (e : Extent α) (n : SceneNode α) : Except Fault (Extent α) := do
  if !n.label.isGiven then return e
  else
    let size ← Caption.nodeFontSize n.disc.radius
    let x ← settle (n.disc.centre.x + n.disc.radius + Caption.nodeGap)
    let y := n.disc.centre.y
    let top ← settle (y - size / 2)
    let right ← settle (x + (← Caption.textWidth n.label size))
    e.add (← Stretch.settle ⟨x, top, right, y + size / 2⟩)

/-- Takes a node in: its circle and its caption. -/
def addTo (e : Extent α) (n : SceneNode α) : Except Fault (Extent α) := do
  n.addCaption (← e.addDisc n.disc)

end SceneNode

namespace SceneEdge

/-- The kind that an edge is drawn as. -/
def drawnKind (style : Style α) (e : SceneEdge α) : EdgeKind :=
  if style.curvedEdges then e.kind.asCurved else e.kind

/-- Whether an edge is drawn as a curve: by its kind, or because it is fanned out. -/
def isCurved (style : Style α) (e : SceneEdge α) : Except Fault Bool :=
  if (e.drawnKind style).isCurved then .ok true else not <$> eq e.curvature 0

/-- The clipped centreline of an edge, unless its circles overlap. -/
def line? (style : Style α) (e : SceneEdge α) : Except Fault (Option (Centreline α)) := do
  Centreline.clipped? e.source e.target (← e.isCurved style) e.curvature

end SceneEdge

namespace DrawnEdge

/-- The points of a centreline that count for the extent: both ends and the middle of a curve. -/
def markers (d : DrawnEdge α) : Except Fault (List (Point α)) :=
  match d.line.toCurve? with
  | some c => do return [d.line.start, d.line.finish, ← c.point 0.5]
  | none => .ok [d.line.start, d.line.finish]

/-- Takes an edge in: circles as large as its thickness around its markers. -/
def addTo (e : Extent α) (d : DrawnEdge α) : Except Fault (Extent α) := do
  let half ← settle (d.edge.thickness / 2)
  (← d.markers).foldlM (fun e p => e.addDisc ⟨p, half⟩) e

def outline (style : Style α) (d : DrawnEdge α) : Except Fault (Outline α) :=
  Outline.ofCentreline d.line (d.edge.drawnKind style) d.edge.thickness

def caption? (style : Style α) (scale : α) (d : DrawnEdge α) : Except Fault (Option (Caption.Placed α)) :=
  Caption.place? style d.line d.edge.label d.edge.thickness scale

end DrawnEdge

/-- An edge with the clipped centreline that has come of it. -/
structure ClippedEdge (α : Type) where
  edge : SceneEdge α
  line : Except Fault (Option (Centreline α))

def ClippedEdge.drawn? (c : ClippedEdge α) : Except Fault (Option (DrawnEdge α)) := do
  return (← c.line).map fun line => ⟨c.edge, line⟩

namespace Scene

def clipped (style : Style α) (s : Scene α) : List (ClippedEdge α) :=
  s.edges.map fun e => ⟨e, e.line? style⟩

def drawn (clipped : List (ClippedEdge α)) : Except Fault (List (DrawnEdge α)) := do
  return (← clipped.mapM ClippedEdge.drawn?).filterMap id

/-- The edges that are left out because their circles overlap, up to one whose centreline fails. -/
def leftOut (clipped : List (ClippedEdge α)) : List (SceneEdge α) :=
  (clipped.takeWhile (·.line.toBool)).filterMap fun c =>
    match c.line with
    | .ok none => some c.edge
    | _ => none

/-- The extent of nodes with their captions, and of edges. -/
def extent (s : Scene α) (drawn : List (DrawnEdge α)) : Except Fault (Extent α) := do
  drawn.foldlM DrawnEdge.addTo (← s.nodes.foldlM SceneNode.addTo {})

/-- The box of everything but the captions of edges. -/
def baseBox (style : Style α) (s : Scene α) : Except Fault (Box α) := do
  (← s.extent (← drawn (s.clipped style))).box style.padding

end Scene
end NodeLink
