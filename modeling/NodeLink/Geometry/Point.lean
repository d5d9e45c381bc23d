import NodeLink.Scalar

/-!
# Points

Points of the plane, which are also its vectors, and circles.
-/

namespace NodeLink

structure Point (α : Type) where
  x : α
  y : α
  deriving DecidableEq, Repr

structure Disc (α : Type) where
  centre : Point α
  radius : α
  deriving DecidableEq, Repr

namespace Point

open Scalar

variable {α : Type} [Scalar α]

def settle (p : Point α) : Except Fault (Point α) := do
  let x ← Scalar.settle p.x
  let y ← Scalar.settle p.y
  return ⟨x, y⟩

def distance (a b : Point α) : α := hypot (b.x - a.x) (b.y - a.y)

def midpoint (a b : Point α) : Point α := ⟨(a.x + b.x) / 2, (a.y + b.y) / 2⟩

/-- The direction from one point to another, which equal points do not have. -/
def direction? (a b : Point α) : Except Fault (Option (Point α)) := do
  let length ← Scalar.settle (distance a b)
  if ← eq length 0 then return none
  else return some (← settle ⟨(b.x - a.x) / length, (b.y - a.y) / length⟩)

def moved (p v : Point α) (factor : α) : Point α := ⟨p.x + factor * v.x, p.y + factor * v.y⟩

def scaled (v : Point α) (factor : α) : Point α := ⟨v.x * factor, v.y * factor⟩

end Point
end NodeLink
