import NodeLink.Geometry.Curve
import NodeLink.Graph.Kind

/-!
# Outlines

An edge is drawn as a filled outline, so that its thickness and its heads are exact. An outline is a list
of path commands: a band or a ribbon for the body and a triangle for each head. A head is shortened where
the edge has no room for it, and the body stops where a head begins.
-/

namespace NodeLink

open Scalar

variable {α : Type} [Scalar α]

inductive PathCommand (α : Type) where
  | move (p : Point α)
  | line (p : Point α)
  | quadratic (control p : Point α)
  | cubic (first second p : Point α)
  | close
  deriving DecidableEq, Repr

abbrev Outline (α : Type) := List (PathCommand α)

structure Head (α : Type) where
  length : α
  width : α
  deriving DecidableEq, Repr

namespace Head

/-- The head for a thickness, within bounds, and made smaller to fit into the given length. -/
def fitted (thickness available : α) : Except Fault (Head α) := do
  let length ← least (← greatest (thickness * 2.5) 8.0) 40.0
  let width ← least (← greatest (thickness * 1.8) 6.0) 30.0
  if ← gt available 0 then
    if ← gt length available then
      let scale ← settle (available / length)
      return ⟨← settle (length * scale), ← settle (width * scale)⟩
  return ⟨length, width⟩

end Head

namespace Outline

/-- A four-sided band along the line from `a` to `b`, to `side` on one side and as far on the other. -/
def band (a b side : Point α) : Outline α :=
  [.move (a.moved side 1.0), .line (a.moved side (-1)), .line (b.moved side (-1)), .line (b.moved side 1.0),
    .close]

/-- A triangle from `base` to `tip`, nothing if they are one point. -/
def triangle (tip base : Point α) (width : α) : Except Fault (Outline α) := do
  match ← base.direction? tip with
  | none => return []
  | some u =>
    let side ← Point.settle ⟨-u.y * width / 2, u.x * width / 2⟩
    return [.move tip, .line (base.moved side 1.0), .line (base.moved side (-1)), .close]

/-- How many heads share the length of an edge, at least one. -/
def headCount (startArrow endArrow : Bool) : α :=
  if startArrow && endArrow then 2 else 1

/-- The triangles of the heads that are asked for, given the points where the body begins and ends. -/
def heads (start finish bodyStart bodyEnd : Point α) (width : α) (startArrow endArrow : Bool) :
    Except Fault (Outline α) := do
  let first ← if startArrow then triangle start bodyStart width else pure []
  let second ← if endArrow then triangle finish bodyEnd width else pure []
  return first ++ second

end Outline

namespace PathCommand

def settle : PathCommand α → Except Fault (PathCommand α)
  | .move p => return .move (← p.settle)
  | .line p => return .line (← p.settle)
  | .quadratic c p => return .quadratic (← c.settle) (← p.settle)
  | .cubic c d p => return .cubic (← c.settle) (← d.settle) (← p.settle)
  | .close => return .close

end PathCommand

namespace Outline

def settle (o : Outline α) : Except Fault (Outline α) := o.mapM PathCommand.settle

/-- A straight edge with heads where they are asked for. -/
def arrow (start finish : Point α) (thickness : α) (startArrow endArrow : Bool) :
    Except Fault (Outline α) := do
  match ← start.direction? finish with
  | none => return []
  | some u =>
    let head ← Head.fitted thickness (← Scalar.settle (start.distance finish / headCount startArrow endArrow))
    let bodyStart ← if startArrow then (start.moved (u.scaled head.length) 1.0).settle else pure start
    let bodyEnd ← if endArrow then (finish.moved (u.scaled head.length) (-1)).settle else pure finish
    let side ← Point.settle ⟨-u.y * thickness / 2, u.x * thickness / 2⟩
    return (← settle (band bodyStart bodyEnd side)) ++
      (← heads start finish bodyStart bodyEnd head.width startArrow endArrow)

def straight (start finish : Point α) (thickness : α) : Except Fault (Outline α) :=
  arrow start finish thickness false false

/-- The direction across the way from `a` to `b`. -/
def across (a b : Point α) : Except Fault (Point α) := do
  match ← a.direction? b with
  | none => return ⟨0.0, 1.0⟩
  | some u => Point.settle ⟨-u.y, u.x⟩

/-- A point moved to one side of a ribbon. -/
def shifted (p side : Point α) (factor half : α) : Point α :=
  ⟨p.x + factor * side.x * half, p.y + factor * side.y * half⟩

/-- The direction across a curve at its control point: the mean of those at its two ends. -/
def acrossMiddle (atStart atEnd : Point α) : Except Fault (Point α) := do
  let mean ← (atStart.midpoint atEnd).settle
  let length ← Scalar.settle (hypot mean.x mean.y)
  if ← gt length 0 then Point.settle ⟨mean.x / length, mean.y / length⟩ else return atStart

/-- A band along a curve. Its sides are curves again, with control points moved along the mean of the
directions across the two ends. -/
def ribbon (c : Curve α) (thickness : α) : Except Fault (Outline α) := do
  let half ← Scalar.settle (thickness / 2)
  let atStart ← across c.start c.control
  let atEnd ← across c.control c.finish
  let atControl ← acrossMiddle atStart atEnd
  settle
    [.move (shifted c.start atStart 1 half),
      .quadratic (shifted c.control atControl 1 half) (shifted c.finish atEnd 1 half),
      .line (shifted c.finish atEnd (-1) half),
      .quadratic (shifted c.control atControl (-1) half) (shifted c.start atStart (-1) half),
      .close]

/-- A curved edge with heads where they are asked for; a head ends where the curve is a head's length away
from the tip. -/
def curvedArrow (c : Curve α) (thickness : α) (startArrow endArrow : Bool) : Except Fault (Outline α) := do
  let head ← Head.fitted thickness
    (← Scalar.settle (c.start.distance c.finish / headCount startArrow endArrow))
  let t₀ ← if startArrow then c.crossing ⟨c.start, head.length⟩ { inside := .before } else pure 0.0
  let t₁ ← if endArrow then c.crossing ⟨c.finish, head.length⟩ { inside := .after } else pure 1.0
  let body ← c.between t₀ t₁
  return (← ribbon body thickness) ++
    (← heads c.start c.finish body.start body.finish head.width startArrow endArrow)

/-- The outline of a clipped centreline, with the heads its kind asks for. -/
def ofCentreline (c : Centreline α) (kind : EdgeKind) (thickness : α) : Except Fault (Outline α) :=
  match c.toCurve? with
  | some curve =>
    if kind.endArrow then curvedArrow curve thickness kind.startArrow true else ribbon curve thickness
  | none =>
    if kind.endArrow then arrow c.start c.finish thickness kind.startArrow true
    else straight c.start c.finish thickness

/-- The outline of an edge between two circles, nothing if they overlap. -/
def ofDiscs (source target : Disc α) (kind : EdgeKind) (thickness curvature : α) :
    Except Fault (Outline α) := do
  let curved ← if kind.isCurved then pure true else not <$> eq curvature 0
  match ← Centreline.clipped? source target curved curvature with
  | none => return []
  | some c => ofCentreline c kind thickness

end Outline
end NodeLink
