import NodeLink.Fault

/-!
# Kinds of edges

An edge is drawn straight or curved, and bare, with a head at its end, or with a head at both ends. Each
kind has a name in documents.
-/

namespace NodeLink

inductive EdgeKind where
  | line
  | arrow
  | doubleArrow
  | curved
  | curvedArrow
  | curvedDoubleArrow
  deriving DecidableEq, Repr

namespace EdgeKind

def all : List EdgeKind := [.line, .arrow, .doubleArrow, .curved, .curvedArrow, .curvedDoubleArrow]

def name : EdgeKind → String
  | .line => "line"
  | .arrow => "arrow"
  | .doubleArrow => "doubleArrow"
  | .curved => "curved"
  | .curvedArrow => "curvedArrow"
  | .curvedDoubleArrow => "curvedDoubleArrow"

def isCurved : EdgeKind → Bool
  | .curved | .curvedArrow | .curvedDoubleArrow => true
  | _ => false

def endArrow : EdgeKind → Bool
  | .line | .curved => false
  | _ => true

def startArrow : EdgeKind → Bool
  | .doubleArrow | .curvedDoubleArrow => true
  | _ => false

/-- The curved kind with the same heads. -/
def asCurved : EdgeKind → EdgeKind
  | .line => .curved
  | .arrow => .curvedArrow
  | .doubleArrow => .curvedDoubleArrow
  | kind => kind

def ofJson? (value : Json) : Except Fault EdgeKind :=
  match all.find? fun kind => value.key? == some (.text kind.name) with
  | some kind => .ok kind
  | none => .error (.unknownKind value)

end EdgeKind
end NodeLink
