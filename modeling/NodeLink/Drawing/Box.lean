import NodeLink.Geometry.Point

/-!
# Boxes

Upright boxes, the extent of what is drawn, and the box of a given aspect that fits into an area.
-/

namespace NodeLink

open Scalar

variable {α : Type} [Scalar α]

/-- A box by its corner with the least coordinates and its size. -/
structure Box (α : Type) where
  x : α
  y : α
  width : α
  height : α
  deriving DecidableEq, Repr

/-- A stretch of the plane by its bounds on both axes. -/
structure Stretch (α : Type) where
  minX : α
  minY : α
  maxX : α
  maxY : α
  deriving DecidableEq, Repr

/-- The least stretch around what has been drawn so far, by its bounds as far as there are any. -/
structure Extent (α : Type) where
  minX : Option α := none
  minY : Option α := none
  maxX : Option α := none
  maxY : Option α := none
  deriving DecidableEq, Repr

namespace Stretch

def settle (s : Stretch α) : Except Fault (Stretch α) := do
  return ⟨← Scalar.settle s.minX, ← Scalar.settle s.minY, ← Scalar.settle s.maxX, ← Scalar.settle s.maxY⟩

def ofDisc (d : Disc α) : Except Fault (Stretch α) :=
  settle ⟨d.centre.x - d.radius, d.centre.y - d.radius, d.centre.x + d.radius, d.centre.y + d.radius⟩

end Stretch

namespace Extent

/-- The lower one of a bound and a coordinate. Without a bound so far every coordinate below the top is one. -/
def lower (bound : Option α) (x : α) : Except Fault (Option α) :=
  match bound with
  | none => do return if ← isBelowTop x then some x else none
  | some b => some <$> least b x

/-- The upper one of a bound and a coordinate. -/
def upper (bound : Option α) (x : α) : Except Fault (Option α) :=
  match bound with
  | none => do return if ← isBelowTop (-x) then some x else none
  | some b => some <$> greatest b x

/-- Takes one more stretch of the plane in. -/
def add (e : Extent α) (s : Stretch α) : Except Fault (Extent α) := do
  return ⟨← lower e.minX s.minX, ← lower e.minY s.minY, ← upper e.maxX s.maxX, ← upper e.maxY s.maxY⟩

def addDisc (e : Extent α) (d : Disc α) : Except Fault (Extent α) := do e.add (← Stretch.ofDisc d)

def isEmpty (e : Extent α) : Bool := e.minX.isNone

/-- The box around an extent at a distance; an empty drawing has a box of its own. -/
def box (padding : α) (e : Extent α) : Except Fault (Box α) :=
  if e.isEmpty then .ok ⟨0.0, 0.0, 100.0, 100.0⟩
  else do
    let minX := e.minX.getD top
    let minY := e.minY.getD top
    let maxX := e.maxX.getD (-top)
    let maxY := e.maxY.getD (-top)
    return ⟨← settle (minX - padding), ← settle (minY - padding), ← settle (maxX - minX + 2 * padding),
      ← settle (maxY - minY + 2 * padding)⟩

end Extent

namespace Box

def settle (b : Box α) : Except Fault (Box α) := do
  return ⟨← Scalar.settle b.x, ← Scalar.settle b.y, ← Scalar.settle b.width, ← Scalar.settle b.height⟩

/-- Width and height of an aspect that just fit into the given ones. -/
def scaledTo (width height aspect : α) : Except Fault (α × α) := do
  if ← gt (width / height) aspect then return (← Scalar.settle (height * aspect), height)
  else return (width, ← Scalar.settle (width / aspect))

def isFlat (width height : α) : Except Fault Bool := do
  if ← le width 0 then return true else le height 0

/-- The largest box of an aspect in the middle of an area, at a distance from its edges. -/
def fitted (area : Box α) (padding aspect : α) : Except Fault (Box α) := do
  let width ← Scalar.settle (area.width - padding * 2)
  let height ← Scalar.settle (area.height - padding * 2)
  if ← isFlat width height then
    settle ⟨area.x + area.width / 2, area.y + area.height / 2, 0.0, 0.0⟩
  else
    let (w, h) ← scaledTo width height aspect
    settle ⟨area.x + padding + (width - w) / 2, area.y + padding + (height - h) / 2, w, h⟩

end Box
end NodeLink
