import NodeLink.Geometry.Curve
import NodeLink.Graph.Basic

/-!
# Fans

Edges between the same ordered pair of nodes would lie on top of each other. They are grouped by their pairs,
in the order in which the pairs come up, and every edge of a group is bent by a curvature of its own, in the
order in which the edges stand in the list.
-/

namespace NodeLink

section
variable {ι κ : Type} [DecidableEq κ]

/-- Puts an item into the group of its key, or into a new group at the end. -/
def enrol (key : κ) (item : ι) : List (κ × List ι) → List (κ × List ι)
  | [] => [(key, [item])]
  | group :: groups =>
    if group.1 = key then (key, group.2 ++ [item]) :: groups else group :: enrol key item groups

/-- The items of a list by their keys, in the order in which the keys come up. -/
def grouped (key : ι → κ) (items : List ι) : List (κ × List ι) :=
  items.foldl (fun groups item => enrol (key item) item groups) []

end

/-- An ordered pair of nodes. An id that is no key names no node. -/
abbrev Pair := Option Key × Option Key

namespace Edge

def pair (e : Edge) : Pair := (e.source.key?, e.target.key?)

/-- What keeps an edge from being told apart by its ends. -/
def checkEnds (e : Edge) : Except Fault Unit := do
  discard (Graph.keyOf e.source)
  discard (Graph.keyOf e.target)

end Edge

/-- An edge with the curvature that fans it out. -/
structure FannedEdge (α : Type) where
  edge : Edge
  curvature : α

/-- The edge with the curvature written into it. -/
def FannedEdge.bend (f : FannedEdge Value) : Edge := { f.edge with curvature := f.curvature }

namespace Graph

open Scalar

variable (α : Type) [Scalar α]

/-- The curvatures of the edges of one pair, with the places of the edges. -/
def groupCurvatures (group : List (Pair × Nat)) : Except Fault (List (Nat × α)) :=
  group.zipIdx.mapM fun member => do
    return (member.1.2, ← fanOut (ofWhole member.2) (ofWhole group.length))

/-- The curvatures of a list of edges, in order, given the pairs that they connect. -/
def curvatures (pairs : List Pair) : Except Fault (List α) := do
  let given ← (grouped Prod.fst pairs.zipIdx).mapM fun group => groupCurvatures α group.2
  return (List.range pairs.length).filterMap (given.flatten.lookup ·)

/-- The edges of a list with their curvatures. -/
def fan (edges : List Edge) : Except Fault (List (FannedEdge α)) := do
  edges.forM Edge.checkEnds
  return edges.zipWith FannedEdge.mk (← curvatures α (edges.map Edge.pair))

def fanned (edges : List Edge) : Except Fault (List Edge) := do
  return (← fan Value edges).map FannedEdge.bend

/-- The edges grouped by their ordered pairs. -/
def pairGroups (edges : List Edge) : List (List Edge) := (grouped Edge.pair edges).map (·.2)

def fanOutEdges (g : Graph) : Except Fault Graph := do return { g with edges := ← fanned g.edges }

end Graph
end NodeLink
