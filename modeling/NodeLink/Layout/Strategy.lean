import NodeLink.Layout.Force
import NodeLink.Layout.Graphviz
import NodeLink.Notice

/-!
# Layouts

A layout gives every node of a graph a position and changes nothing else. Random numbers come from one
stream, read by position; a layout says how many of them it has used. Where Graphviz gives no layout, the
simulation of forces takes its place.
-/

namespace NodeLink

/-- What gives the positions of the delegated layout. -/
inductive Runner where
  | graphviz
  | fixed (places : List (String × Json))
  | unavailable (reason : String)
  | failing (reason : String)

inductive Strategy where
  | random
  | circular
  | force (iterations : Json) (law : Force.Law Value)
  | delegated (iterations : Json) (runner : Runner)

namespace Strategy

def defaultLaw : Force.Law Value := ⟨.real 1000.0, .real 0.01, .real 0.85⟩

def defaultIterations : Json := .whole 50

def defaultName : String := "simple-force"

def default : Strategy := .force defaultIterations defaultLaw

def named : List (String × Strategy) :=
  [("random", .random), ("circular", .circular), (defaultName, default),
    ("force-atlas2", .delegated defaultIterations .graphviz),
    ("graphviz", .delegated defaultIterations .graphviz)]

/-- The strategy of a name; an unknown name stands for the simulation, with a notice. -/
def ofName (name : Json) : Except Fault (Strategy × List Notice) := do
  let key ← Graph.keyOf name
  match named.find? fun entry => key = .text entry.1 with
  | some entry => return (entry.2, [])
  | none => return (default, [.unknownLayout name defaultName])

def name : Strategy → String
  | .random => "random"
  | .circular => "circular"
  | .force .. => "simple-force"
  | .delegated .. => "force-atlas2"

/-- The name of the strategy's type in listings. -/
def typeName : Strategy → String
  | .random => "RandomLayout"
  | .circular => "CircularLayout"
  | .force .. => "SimpleForceLayout"
  | .delegated .. => "GraphvizForceLayout"

def shown (s : Strategy) : String := "<" ++ s.typeName ++ " name='" ++ s.name ++ "'>"

end Strategy

namespace Layout

/-- What layouts use of the world: the stream of random numbers, and what Graphviz answers. -/
structure World where
  draw : Nat → Value
  graphviz : Graphviz.Outcome := .missing

/-- A graph while it is laid out, the random numbers used, notices, and runs of Graphviz. -/
structure State where
  graph : Graph
  draws : Nat := 0
  notices : List Notice := []
  requests : List Graphviz.Request := []

/-- How a layout ends: the state it leaves, and a fault if it could not go on. -/
structure Result where
  state : State
  fault : Option Fault := none

namespace State

def withNodes (s : State) (nodes : List Node) (draws : Nat) : State :=
  { s with graph := s.graph.withNodes nodes, draws := draws }

def noting (s : State) (notices : List Notice) : State := { s with notices := s.notices ++ notices }

end State

/-- A coordinate, or a random one from -100 to 100 if it is not set. -/
def seeded (w : World) (coordinate : Json) : Force.Drawing Json := do
  if coordinate.isNull then
    return (← Value.settle ((← Force.next w.draw) * .whole 2 * .real 100.0 - .real 100.0)).toJson
  else return coordinate

/-- A random coordinate from -200 to 200. -/
def scattered (w : World) (_ : Json) : Force.Drawing Json := do
  return (← Value.settle (((← Force.next w.draw) - .real 0.5) * .whole 2 * .real 200.0)).toJson

/-- Renews the coordinates of one node after the other, each first along one axis and then along the other,
up to one that fails; also gives the number of draws used then. -/
def renew (coordinate : Json → Force.Drawing Json) :
    Nat → List Node → List Node × Nat × Option Fault
  | draws, [] => ([], draws, none)
  | draws, n :: rest =>
    match (coordinate n.x).run draws with
    | (.error fault, draws) => (n :: rest, draws, some fault)
    | (.ok x, draws) =>
      match (coordinate n.y).run draws with
      | (.error fault, draws) => ({ n with x } :: rest, draws, some fault)
      | (.ok y, draws) =>
        let (more, draws, fault) := renew coordinate draws rest
        ({ n with x, y } :: more, draws, fault)

def renewAll (coordinate : Json → Force.Drawing Json) (s : State) : Result :=
  let (nodes, draws, fault) := renew coordinate s.draws s.graph.nodes
  { state := s.withNodes nodes draws, fault }

/-- Gives every coordinate that is not set a random start, and goes on from there. -/
def afterSeeding (w : World) (s : State) (goOn : State → Result) : Result :=
  match renewAll (seeded w) s with
  | { state, fault := none } => goOn state
  | failed => failed

def radiusFor {α : Type} [Scalar α] (count : α) : Except Fault α := do
  Scalar.greatest 80 (← Scalar.settle (count * 20))

/-- The place of node `i` of `count` on a circle. -/
def circlePlace {α : Type} [Scalar α] (count i : Nat) (radius : α) : Except Fault (Point α) := do
  let step ← Scalar.settle (2 * Scalar.pi / Scalar.ofWhole count)
  let angle ← Scalar.settle (Scalar.ofWhole i * step)
  Point.settle ⟨Scalar.cos angle * radius, Scalar.sin angle * radius⟩

def placed (n : Node) (p : Point Value) : Node := { n with x := p.x.toJson, y := p.y.toJson }

def circleNodes (nodes : List Node) : Except Fault (List Node) := do
  let radius ← radiusFor (Value.whole nodes.length)
  nodes.zipIdx.mapM fun (n, i) => placed n <$> circlePlace nodes.length i radius

/-- Where the node of a key stands among the places. -/
def indexOf? (slots : List Slot) (key : Key) : Option Nat :=
  slots.findIdx? fun slot => slot.id.key? == some key

/-- The ends of an edge by their places if it pulls: both are there, and they are not equal. -/
def spring? (slots : List Slot) (e : Edge) : Except Fault (Option (Nat × Nat)) := do
  match indexOf? slots (← Graph.keyOf e.source) with
  | none => return none
  | some source =>
    match indexOf? slots (← Graph.keyOf e.target) with
    | none => return none
    | some target => return if e.source.equal e.target then none else some (source, target)

def springs (g : Graph) : Except Fault (List (Nat × Nat)) := do
  return (← g.edges.mapM (spring? g.slots)).filterMap id

def centre (n : Node) : Point Value := ⟨.ofJson n.x, .ofJson n.y⟩

/-- The edges that pull, and how many steps are asked for. -/
def plan (g : Graph) (iterations : Json) : Except Fault (List (Nat × Nat) × Int) := do
  let edges ← springs g
  return (edges, ← iterations.count?)

def moveNodes (w : World) (law : Force.Law Value) (edges : List (Nat × Nat)) (count : Nat) (s : State) :
    Result :=
  let nodes := s.graph.nodes
  let start : Force.State Value := ⟨(nodes.map centre).toArray, s.draws⟩
  let (done, fault) := Force.steps law w.draw edges count start
  { state := s.withNodes (nodes.zipWith placed done.points.toList) done.draws, fault }

/-- The simulation of forces from seeded positions. -/
def simulateForces (w : World) (iterations : Json) (law : Force.Law Value) (s : State) : Result :=
  if s.graph.slots.isEmpty then { state := s }
  else afterSeeding w s fun s =>
    match plan s.graph iterations with
    | .error fault => { state := s, fault := some fault }
    | .ok (edges, count) => if count ≤ 0 then { state := s } else moveNodes w law edges count.toNat s

/-- Spots of which each may turn out to be none. -/
abbrev Spots := List (Except Fault Graphviz.Spot)

/-- The positions that a runner gives, and the runs of Graphviz it made. -/
def runRunner (w : World) (g : Graph) (settings : List Dot.Attribute) :
    Runner → Except Fault Spots × List Graphviz.Request
  | .graphviz =>
    let (outcome, requests) := Graphviz.run g settings w.graphviz
    (outcome.map (List.map .ok), requests)
  | .fixed places => (.ok (places.map fun (id, place) => Graphviz.Spot.ofPlace (.text id) place), [])
  | .unavailable reason => (.error (.noLayout reason), [])
  | .failing reason => (.error (.collaborator reason), [])

/-- Puts the node of a spot there; a spot for no node of the graph does nothing. -/
def moveTo (nodes : List Node) (spot : Graphviz.Spot) : List Node :=
  nodes.map fun n => if n.id.key? == spot.id.key? then { n with x := spot.x, y := spot.y } else n

/-- Puts nodes at their spots, up to one that turns out to be none. -/
def moveToAll : List Node → Spots → List Node × Option Fault
  | nodes, [] => (nodes, none)
  | nodes, .ok spot :: rest => moveToAll (moveTo nodes spot) rest
  | nodes, .error fault :: _ => (nodes, some fault)

/-- The delegated layout: seeded positions, then those of the runner, or the simulation instead. -/
def delegate (w : World) (iterations : Json) (runner : Runner) (s : State) : Result :=
  if s.graph.slots.isEmpty then { state := s }
  else afterSeeding w s fun s =>
    let settings := Graphviz.inferSettings s.graph iterations
    let s := s.noting [.delegating s.graph.slots.length settings]
    let (outcome, requests) := runRunner w s.graph settings runner
    let s := { s with requests := s.requests ++ requests }
    match outcome with
    | .ok spots =>
      let (nodes, fault) := moveToAll s.graph.nodes spots
      { state := s.withNodes nodes s.draws, fault }
    | .error (.noLayout reason) =>
      simulateForces w iterations Strategy.defaultLaw (s.noting [.fallingBack reason])
    | .error fault => { state := s, fault := some fault }

def circle (s : State) : Result :=
  match circleNodes s.graph.nodes with
  | .ok nodes => { state := s.withNodes nodes s.draws }
  | .error fault => { state := s, fault := some fault }

def apply (w : World) (strategy : Strategy) (s : State) : Result :=
  match strategy with
  | .random => renewAll (scattered w) s
  | .circular => circle s
  | .force iterations law => simulateForces w iterations law s
  | .delegated iterations runner => delegate w iterations runner s

/-- Lays a graph out by a strategy with a notice; a graph without nodes is left alone. -/
def place (w : World) (strategy : Strategy) (s : State) : Result :=
  if s.graph.slots.isEmpty then { state := s }
  else apply w strategy (s.noting [.placing strategy.name s.graph.slots.length])

/-- Lays a graph out by the strategy of a name. A value that is no name does for a graph without nodes. -/
def placeByName (w : World) (name : Json) (s : State) : Result :=
  match name with
  | .text _ =>
    match Strategy.ofName name with
    | .ok (strategy, notices) => place w strategy (s.noting notices)
    | .error fault => { state := s, fault := some fault }
  | value =>
    if s.graph.slots.isEmpty then { state := s }
    else { state := s, fault := some (.noMember value.sort "name") }

end Layout
end NodeLink
