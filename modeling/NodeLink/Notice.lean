import NodeLink.Fault

/-!
# Notices

What the program reports on the side while it works. Each notice knows its level, the part of the program
it comes from, its wording with places for the details, and the details.
-/

namespace NodeLink

inductive Notice where
  | droppedEdge (line : String)
  | skippedLine (line : String)
  | unknownLayout (name : Json) (used : String)
  | placing (strategy : String) (count : Nat)
  | delegating (count : Nat) (settings : List (String × Json))
  | fallingBack (reason : String)
  | overlap (edge : Json)
  | iconMissing (uri : String) (reason : String)
  | unreadable (path : String) (reason : String)
  | recomputeFailed (kind : String) (reason : String)

namespace Notice

def level : Notice → String
  | .droppedEdge _ | .skippedLine _ | .placing .. | .delegating .. | .overlap _ => "DEBUG"
  | .recomputeFailed .. => "ERROR"
  | _ => "WARNING"

def part : Notice → String
  | .droppedEdge _ | .skippedLine _ => "graphdiagram.frontend.parser"
  | .unknownLayout .. | .placing .. => "graphdiagram.layout"
  | .delegating .. | .fallingBack _ => "graphdiagram.layout.delegated"
  | .overlap _ => "graphdiagram.backend.svg"
  | .iconMissing .. => "graphdiagram.backend.icons"
  | .unreadable .. => "graphdiagram.cli"
  | .recomputeFailed .. => "graphdiagram.engine.pipeline"

def wording : Notice → String
  | .droppedEdge _ => "Dropping edge with an empty endpoint: %r"
  | .skippedLine _ => "Skipping unrecognised line: %r"
  | .unknownLayout .. => "Unknown layout %r, using %s"
  | .placing .. => "Applying %s layout to %d nodes"
  | .delegating .. => "Delegating layout of %d nodes with %s"
  | .fallingBack _ => "Falling back to simple force layout: %s"
  | .overlap _ => "Skipping edge %s: endpoint circles overlap"
  | .iconMissing .. => "Failed to fetch icon %s: %s"
  | .unreadable .. => "Cannot stat %s: %s"
  | .recomputeFailed .. => "Recomputing diagram failed"

def details : Notice → List Json
  | .droppedEdge line | .skippedLine line => [.text line]
  | .unknownLayout name used => [name, .text used]
  | .placing strategy count => [.text strategy, .whole count]
  | .delegating count settings => [.whole count, .record settings]
  | .fallingBack reason => [.text reason]
  | .overlap edge => [edge]
  | .iconMissing uri reason => [.text uri, .text reason]
  | .unreadable path reason => [.text path, .text reason]
  | .recomputeFailed .. => []

/-- A notice as a record: level, part, wording, details and, for a failure, its kind and reason. -/
def toJson (n : Notice) : Json :=
  let base : List Json := [.text n.level, .text n.part, .text n.wording, .list n.details]
  match n with
  | .recomputeFailed kind reason => .list (base ++ [.text (kind ++ ": " ++ reason)])
  | _ => .list base

end Notice
end NodeLink
