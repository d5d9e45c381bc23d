import NodeLink.Geometry.Point

/-!
# Curves

A curved edge is a quadratic curve with one control point, pushed off the chord to one side. The clipped
centreline of an edge is what lies outside the circles of its two nodes. Where a curve leaves a circle is
found by sampling the curve and halving the stretch around the best sample.
-/

namespace NodeLink

open Scalar

variable {α : Type} [Scalar α]

structure Curve (α : Type) where
  start : Point α
  control : Point α
  finish : Point α
  deriving DecidableEq, Repr

/-- The middle line of an edge. A straight one has no control point. -/
structure Centreline (α : Type) where
  start : Point α
  control : Option (Point α)
  finish : Point α
  deriving DecidableEq, Repr

def baseCurvature : α := 0.12
def parallelSpread : α := 0.8

/-- How far edge `index` of `count` parallel ones is fanned out. -/
def fanOut (index count : α) : Except Fault α := do
  if ← le count 1 then return 0.0 else settle ((index - (count - 1) / 2) * parallelSpread)

/-- The midpoint of the chord, pushed to its side by a share of its length. -/
def controlPoint (start finish : Point α) (curvature : α) : Except Fault (Point α) := do
  let mid ← (start.midpoint finish).settle
  let distance ← settle (start.distance finish)
  if ← eq distance 0 then return mid
  else
    let offset ← settle (distance * (baseCurvature + baseCurvature * curvature))
    let sideX ← settle (-(finish.y - start.y) / distance)
    let sideY ← settle ((finish.x - start.x) / distance)
    Point.settle ⟨mid.x + sideX * offset, mid.y + sideY * offset⟩

namespace Curve

/-- The point at parameter `t`, from 0 at the start to 1 at the end. -/
def point (c : Curve α) (t : α) : Except Fault (Point α) := do
  let s ← settle (1 - t)
  Point.settle
    ⟨s * s * c.start.x + 2 * s * t * c.control.x + t * t * c.finish.x,
      s * s * c.start.y + 2 * s * t * c.control.y + t * t * c.finish.y⟩

/-- The symmetric form of the curve: the point at `t` is the blossom at `t` and `t`. -/
def blossom (c : Curve α) (u v : α) : Except Fault (Point α) := do
  let a ← settle ((1 - u) * (1 - v))
  let b ← settle ((1 - u) * v + u * (1 - v))
  let d ← settle (u * v)
  Point.settle
    ⟨a * c.start.x + b * c.control.x + d * c.finish.x, a * c.start.y + b * c.control.y + d * c.finish.y⟩

/-- The part of the curve between two parameters, as a curve of its own. -/
def between (c : Curve α) (t₀ t₁ : α) : Except Fault (Curve α) := do
  return ⟨← c.blossom t₀ t₀, ← c.blossom t₀ t₁, ← c.blossom t₁ t₁⟩

def toCentreline (c : Curve α) : Centreline α := ⟨c.start, some c.control, c.finish⟩

/-- On which side of a crossing the curve is inside the circle: before it where the curve leaves the
circle, after it where it enters, on neither side if the search has no use for the answer. -/
inductive Inside where
  | before
  | after
  | neither (first : Bool)
  deriving DecidableEq, Repr

namespace Inside

/-- The side by a value that is true where the curve begins inside. -/
def ofJson (value : Json) : Inside :=
  if value.equal (.bool true) then .before
  else if value.equal (.bool false) then .after
  else .neither value.isGiven

/-- Whether the search begins with the start of the curve. -/
def beginsFirst : Inside → Bool
  | .before => true
  | .after => false
  | .neither first => first

/-- Whether the crossing lies further on, given whether a point is inside the circle. -/
def isFurther : Inside → Bool → Bool
  | .before, inside => inside
  | .after, inside => !inside
  | .neither _, _ => false

end Inside

structure Search where
  inside : Inside := .before
  samples : Int := 100
  halvings : Except Fault Int := .ok 20

/-- How far the point at `t` is off the circle. -/
def gap (c : Curve α) (circle : Disc α) (t : α) : Except Fault α := do
  settle (magnitude ((← c.point t).distance circle.centre - circle.radius))

def betterSample (c : Curve α) (circle : Disc α) (best : Option (α × α)) (t : α) :
    Except Fault (Option (α × α)) := do
  let off ← c.gap circle t
  match best with
  | none => return if ← isBelowTop off then some (off, t) else none
  | some (least, s) => return if ← lt off least then some (off, t) else some (least, s)

/-- The sampled parameter whose point is closest to the circle, the first of equals. -/
def bestSample (c : Curve α) (circle : Disc α) (search : Search) : Except Fault α := do
  let best ← (List.range (search.samples + 1).toNat).foldlM (fun best i => do
    c.betterSample circle best (← settle (ofWhole i / ofInt search.samples))) none
  match best with
  | some (_, t) => return t
  | none => return if search.inside.beginsFirst then 0.0 else 1.0

/-- Halves a stretch of the parameter, keeping the half in which the curve crosses. -/
def halve (c : Curve α) (circle : Disc α) (inside : Inside) : Nat → α → α → Except Fault α
  | 0, lo, hi => settle ((lo + hi) / 2)
  | n + 1, lo, hi => do
    let mid ← settle ((lo + hi) / 2)
    if inside.isFurther (← lt ((← c.point mid).distance circle.centre) circle.radius)
    then halve c circle inside n mid hi
    else halve c circle inside n lo mid

def crossing (c : Curve α) (circle : Disc α) (search : Search) : Except Fault α := do
  let best ← c.bestSample circle search
  let lo ← greatest 0.0 (best - 1 / ofInt search.samples)
  let hi ← least 1.0 (best + 1 / ofInt search.samples)
  c.halve circle search.inside (← search.halvings).toNat lo hi

end Curve

namespace Centreline

def curved (c : Centreline α) : Bool := c.control.isSome

def toCurve? (c : Centreline α) : Option (Curve α) := c.control.map fun control => ⟨c.start, control, c.finish⟩

/-- Whether two circles are so close that nothing is left between them, given how far their centres are
apart. -/
def overlapping (source target : Disc α) (distance : α) : Except Fault Bool := do
  if ← eq distance 0 then return true else lt distance (source.radius + target.radius)

/-- The straight line between two circles whose centres are the given distance apart. -/
def straight (source target : Disc α) (distance : α) : Except Fault (Centreline α) := do
  let a := source.centre
  let b := target.centre
  let ux ← settle ((b.x - a.x) / distance)
  let uy ← settle ((b.y - a.y) / distance)
  let start ← Point.settle ⟨a.x + ux * source.radius, a.y + uy * source.radius⟩
  let finish ← Point.settle ⟨b.x - ux * target.radius, b.y - uy * target.radius⟩
  return ⟨start, none, finish⟩

def fullCurve (source target : Disc α) (curvature : α) : Except Fault (Curve α) := do
  return ⟨source.centre, ← controlPoint source.centre target.centre curvature, target.centre⟩

/-- The part of the curve between the centres that lies between the circles. -/
def bent (source target : Disc α) (curvature : α) : Except Fault (Centreline α) := do
  let c ← fullCurve source target curvature
  let t₀ ← c.crossing source { inside := .before }
  let t₁ ← c.crossing target { inside := .after }
  return (← c.between t₀ t₁).toCentreline

/-- The centreline of an edge between two circles, unless they overlap. -/
def clipped? (source target : Disc α) (curved : Bool) (curvature : α) :
    Except Fault (Option (Centreline α)) := do
  let distance ← settle (source.centre.distance target.centre)
  if ← overlapping source target distance then return none
  else if curved then return some (← bent source target curvature)
  else return some (← straight source target distance)

end Centreline
end NodeLink
