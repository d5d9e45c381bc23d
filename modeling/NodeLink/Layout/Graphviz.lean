import NodeLink.Graph.Dot
import NodeLink.Graph.Document

/-!
# Layout by Graphviz

A graph is handed to Graphviz as DOT, and positions are read back from its JSON answer. What the program
answers is given as an outcome: it may be missing, fail, or write any bytes.
-/

namespace NodeLink.Graphviz

open NodeLink.Text

inductive Outcome where
  | missing
  | failed (status : Int) (stderr : Json)
  | output (bytes : List Nat)

/-- One run of the program: which engine, and what it is given. -/
structure Request where
  engine : String
  source : String
  deriving DecidableEq, Repr

structure Spot where
  id : Json
  x : Json
  y : Json

/-- The position of a node as a value made of two coordinates. -/
def Spot.ofPlace (id place : Json) : Except Fault Spot := do
  let (x, y) ← Dot.twoParts place
  return ⟨id, x, y⟩

def engines : List String := ["dot", "neato", "twopi", "circo", "fdp", "sfdp", "patchwork", "osage"]

/-- The settings that go by the size of a graph: the engine for large ones, looser springs for small ones. -/
def inferSettings (g : Graph) (iterations : Json) : List Dot.Attribute :=
  let order := g.slots.length
  [("engine", .text (if 500 < order then "sfdp" else "fdp")),
    ("maxiter", .text (Fault.textOf iterations)), ("overlap", .text "false"),
    ("K", .text (if 100 < order then "0.3" else "1.0"))]

def signals : List (Nat × String) :=
  [(1, "HUP"), (2, "INT"), (3, "QUIT"), (4, "ILL"), (5, "TRAP"), (6, "ABRT"), (7, "BUS"), (8, "FPE"),
    (9, "KILL"), (10, "USR1"), (11, "SEGV"), (12, "USR2"), (13, "PIPE"), (14, "ALRM"), (15, "TERM"),
    (16, "STKFLT"), (17, "CHLD"), (18, "CONT"), (19, "STOP"), (20, "TSTP"), (21, "TTIN"), (22, "TTOU"),
    (23, "URG"), (24, "XCPU"), (25, "XFSZ"), (26, "VTALRM"), (27, "PROF"), (28, "WINCH"), (29, "IO"),
    (30, "PWR"), (31, "SYS"), (34, "RTMIN"), (64, "RTMAX")]

/-- How a run ended that did not go well. -/
def endingText (status : Int) : String :=
  if status < 0 then
    match signals.find? fun entry => entry.1 = status.natAbs with
    | some (number, name) => "died with <Signals.SIG" ++ name ++ ": " ++ toString number ++ ">."
    | none => "died with unknown signal " ++ toString status.natAbs ++ "."
  else "returned non-zero exit status " ++ toString status ++ "."

def failureText (engine : String) (status : Int) (stderr : Json) : String :=
  let command := String.ofList (Json.shown (.list [.text engine]))
  "Graphviz " ++ engine ++ " failed: Command '" ++ command ++ "' " ++ endingText status ++ " [stderr: " ++
    String.ofList stderr.shown ++ "]"

def readNumber (text : List Char) : Except Fault Float :=
  match Number.readFloat? text with
  | some x => .ok x
  | none => .error .notNumeric

/-- A position written as two numbers and commas, with the vertical axis pointing up. -/
def readPosition (pos : String) : Except Fault (Json × Json) :=
  match splitAtEach (· == ',') pos.toList with
  | x :: y :: _ => do return (.real (← readNumber x), .real (-(← readNumber y)))
  | _ => .error (.wrongCount false)

/-- The position of one object of the answer, if it is a node with a position. -/
def readObject (g : Graph) (object : Json) : Except Fault (Option Spot) := do
  let name ← object.fieldOr "name" .null
  let pos ← object.fieldOr "pos" .null
  if (← g.hasNode name) && pos.isGiven then
    let (x, y) ← readPosition (← pos.text? "split")
    return some ⟨name, x, y⟩
  else return none

/-- Puts a spot in the place of the one for the same node, or at the end. The name stays as it came first. -/
def putSpot (spot : Spot) : List Spot → List Spot
  | [] => [spot]
  | s :: rest =>
    if s.id.key? == spot.id.key? then { spot with id := s.id } :: rest else s :: putSpot spot rest

def readPositions (g : Graph) (answer : Json) : Except Fault (List Spot) := do
  let objects ← (← answer.fieldOr "objects" (.list [])).items?
  objects.foldlM (fun spots object => do
    match ← readObject g object with
    | some spot => return putSpot spot spots
    | none => return spots) []

/-- The positions in what the program wrote; an answer that is no JSON text gives no layout. -/
def readOutput (g : Graph) (bytes : List Nat) : Except Fault (List Spot) := do
  let unreadable (reason : String) : Fault := .noLayout ("Unreadable Graphviz output: " ++ reason)
  match Utf8.decode bytes with
  | .error fault => throw (unreadable fault.message)
  | .ok cs =>
    match Json.readAll cs with
    | .error fault => throw (if fault.flaw = .depth then .tooDeep else unreadable (fault.message cs))
    | .ok answer => readPositions g answer

def readOutcome (g : Graph) (engine : String) : Outcome → Except Fault (List Spot)
  | .missing => .error (.noLayout
      "Graphviz executable not found. Please install Graphviz: https://graphviz.org/download/")
  | .failed status stderr => .error (.noLayout (failureText engine status stderr))
  | .output bytes => readOutput g bytes

/-- What the program is given for a graph: the engine from the settings, in small letters, and the graph
with the other settings. -/
def prepare (g : Graph) (settings : List Dot.Attribute) : Except Fault Request := do
  discard (Dot.statements g)
  let asked ← ((Json.field? "engine" settings).getD (.text "fdp")).text? "lower"
  let engine := String.ofList (toSmall asked.toList)
  if engines.contains engine then
    let source ← Dot.print g (settings.filter fun setting => setting.1 ≠ "engine")
    return ⟨engine, source⟩
  else throw (.unknownEngine engine)

/-- Runs the program on a graph: the positions, and the run if it came to one. -/
def run (g : Graph) (settings : List Dot.Attribute) (outcome : Outcome) :
    Except Fault (List Spot) × List Request :=
  match prepare g settings with
  | .error fault => (.error fault, [])
  | .ok request => (readOutcome g request.engine outcome, [request])

end NodeLink.Graphviz
