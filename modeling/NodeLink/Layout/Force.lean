import NodeLink.Geometry.Point

/-!
# Forces

A small simulation of springs and charges. In every step each pair of points pushes apart, each edge pulls
its ends together, and every point moves by its net force times the damping. Points in one place are
pushed apart in a random direction. Where a step fails, the random numbers drawn and the moves made before
that count all the same.
-/

namespace NodeLink.Force

open Scalar

/-- The strengths of the forces. -/
structure Law (α : Type) where
  repulsion : α
  attraction : α
  damping : α

/-- A computation that draws random numbers and counts those drawn so far. -/
abbrev Drawing := ExceptT Fault (StateM Nat)

/-- A unit vector and the distance that counts for the force along it. -/
structure Pull (α : Type) where
  along : Point α
  distance : α

/-- Where the points are, and how many random numbers have been drawn. -/
structure State (α : Type) where
  points : Array (Point α)
  draws : Nat

variable {α : Type} [Scalar α]

def plus (p v : Point α) : Except Fault (Point α) := Point.settle ⟨p.x + v.x, p.y + v.y⟩
def minus (p v : Point α) : Except Fault (Point α) := Point.settle ⟨p.x - v.x, p.y - v.y⟩

def origin : Point α := ⟨0.0, 0.0⟩

def next (draw : Nat → α) : Drawing α := do
  let place ← get
  set (place + 1)
  return draw place

/-- The pull over a way of the given length. -/
def pullAlong (way : Point α) (distance : α) : Except Fault (Pull α) := do
  return ⟨← Point.settle ⟨way.x / distance, way.y / distance⟩, ← greatest distance 1.0⟩

/-- A pull in a random direction. -/
def randomPull (draw : Nat → α) : Drawing (Pull α) := do
  let angle ← settle ((← next draw) * 2 * pi)
  return ⟨← Point.settle ⟨cos angle, sin angle⟩, 1.0⟩

/-- The direction from `a` to `b`, a random one if they are in one place, and their distance, at least 1. -/
def pull (draw : Nat → α) (a b : Point α) : Drawing (Pull α) := do
  let way ← Point.settle ⟨b.x - a.x, b.y - a.y⟩
  let distance ← settle (hypot way.x way.y)
  if ← eq distance 0 then randomPull draw else pullAlong way distance

def change (forces : Array (Point α)) (place : Nat) (f : Point α → Except Fault (Point α)) :
    Except Fault (Array (Point α)) :=
  match forces[place]? with
  | none => .ok forces
  | some force => do return forces.setIfInBounds place (← f force)

def repel (law : Law α) (draw : Nat → α) (points forces : Array (Point α)) (pair : Nat × Nat) :
    Drawing (Array (Point α)) := do
  let p ← pull draw (points.getD pair.1 origin) (points.getD pair.2 origin)
  let push ← settle (law.repulsion / (p.distance * p.distance))
  let forces ← change forces pair.1 fun force => minus force (p.along.scaled push)
  change forces pair.2 fun force => plus force (p.along.scaled push)

def attract (law : Law α) (draw : Nat → α) (points forces : Array (Point α)) (edge : Nat × Nat) :
    Drawing (Array (Point α)) := do
  let p ← pull draw (points.getD edge.1 origin) (points.getD edge.2 origin)
  let strength ← settle (p.distance * law.attraction)
  let forces ← change forces edge.1 fun force => plus force (p.along.scaled strength)
  change forces edge.2 fun force => minus force (p.along.scaled strength)

/-- All pairs of numbers below `n`, the smaller one first. -/
def pairs (n : Nat) : List (Nat × Nat) :=
  (List.range n).flatMap fun i => ((List.range n).drop (i + 1)).map fun j => (i, j)

def netForces (law : Law α) (draw : Nat → α) (edges : List (Nat × Nat)) (points : Array (Point α)) :
    Drawing (Array (Point α)) := do
  let pushed ← (pairs points.size).foldlM (repel law draw points) (Array.replicate points.size origin)
  edges.foldlM (attract law draw points) pushed

/-- Moves points by their forces one after the other, each first along one axis and then along the other,
up to a move that fails. -/
def moveAll (damping : α) : List (Point α × Point α) → List (Point α) × Option Fault
  | [] => ([], none)
  | (p, force) :: rest =>
    match settle (p.x + force.x * damping) with
    | .error fault => (p :: rest.map (·.1), some fault)
    | .ok x =>
      match settle (p.y + force.y * damping) with
      | .error fault => (⟨x, p.y⟩ :: rest.map (·.1), some fault)
      | .ok y =>
        let (moved, fault) := moveAll damping rest
        (⟨x, y⟩ :: moved, fault)

/-- One step, up to where it fails. -/
def step (law : Law α) (draw : Nat → α) (edges : List (Nat × Nat)) (s : State α) : State α × Option Fault :=
  match (netForces law draw edges s.points).run s.draws with
  | (.error fault, draws) => ({ s with draws }, some fault)
  | (.ok forces, draws) =>
    let (points, fault) := moveAll law.damping (s.points.toList.zip forces.toList)
    ({ points := points.toArray, draws }, fault)

def steps (law : Law α) (draw : Nat → α) (edges : List (Nat × Nat)) :
    Nat → State α → State α × Option Fault
  | 0, s => (s, none)
  | n + 1, s =>
    match step law draw edges s with
    | (s, none) => steps law draw edges n s
    | stopped => stopped

end NodeLink.Force
