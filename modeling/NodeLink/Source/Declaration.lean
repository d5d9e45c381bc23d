import NodeLink.Source.Connector
import NodeLink.Source.Vocabulary
import NodeLink.Notice
import NodeLink.Graph.Basic

/-!
# Declarations

A line declares the title, a node or an edge, or nothing. Each rule looks at a line for one kind of
declaration, and the first rule that finds one decides.
-/

namespace NodeLink.Source

open NodeLink.Text

structure NodeDecl where
  keyword : String
  id : String
  size : Nat := defaultSize
  color : String := defaultColor
  icon : Option String := none

structure EdgeDecl where
  source : String
  target : String
  label : Option String := none
  weight : Nat := 1
  kind : EdgeKind := .line

inductive Declaration where
  | title (title : Option String)
  | node (decl : NodeDecl)
  | edge (decl : EdgeDecl)

/-- A text, or nothing if it is empty. -/
def nonEmpty? (cs : List Char) : Option String := if cs.isEmpty then none else some (String.ofList cs)

/-- A line that begins with the title keyword. -/
def matchTitle (line : List Char) : Option Declaration :=
  (afterLead? titleKeyword line).map fun rest => .title (nonEmpty? (trim rest))

/-- The number that a token begins with, if it begins with one. A minus makes it no size. -/
def sizeOf (token : List Char) : Except Fault (Option Nat) :=
  let (neg, rest) := match token with
    | '-' :: cs => (true, cs)
    | '+' :: cs => (false, cs)
    | cs => (false, cs)
  let digits := rest.takeWhile isDigit
  if digits.isEmpty then .ok none
  else match wholeOfDigits? digits with
    | none => .error (.tooManyDigits digits.length)
    | some n => .ok (if neg || n == 0 then none else some n)

/-- The colour and the size among the tokens after the id: the first token with a hash, and the first of
the others that begins with a positive number. -/
def traits : Option String → Option Nat → List (List Char) → Except Fault (Option String × Option Nat)
  | color, size, [] => .ok (color, size)
  | color, size, token :: tokens => do
    if color.isNone && startsWith ['#'] token then traits (some (resolveColor token)) size tokens
    else if size.isNone then traits color (← sizeOf token) tokens
    else traits color size tokens

/-- A line of a node keyword, an id, and then a size and a colour in any order. -/
def matchNode (tokens : List (List Char)) : Except Fault (Option Declaration) :=
  match tokens with
  | first :: id :: rest =>
    let keyword := toSmall first
    if nodeKeywords.contains keyword then do
      let (color, size) ← traits none none rest
      return some (.node
        { keyword := String.ofList keyword, id := String.ofList id, size := size.getD defaultSize,
          color := color.getD defaultColor, icon := iconOf? keyword })
    else return none
  | _ => return none

/-- The part before the first colon and the part after it. -/
def cutLabel (line : List Char) : List Char × List Char :=
  (line.takeWhile (· ≠ ':'), (line.dropWhile (· ≠ ':')).drop 1)

/-- A line of two ends with a connector between them, and a label after a colon. An edge without one of
its ends is dropped with a notice. -/
def matchEdge (line : List Char) : Except Fault (Option Declaration × List Notice) := do
  let (ends, label) := cutLabel line
  match ← readLink ends with
  | none => return (none, [])
  | some link =>
    if link.source.isEmpty || link.target.isEmpty then
      return (none, [.droppedEdge (String.ofList line)])
    else
      return (some (.edge
        { source := String.ofList link.source, target := String.ofList link.target,
          label := nonEmpty? (trim label), weight := link.weight, kind := link.kind }), [])

/-- What a line declares, by the first rule that finds a declaration. -/
def readLine (line : List Char) : Except Fault (Option Declaration × List Notice) := do
  match matchTitle line with
  | some decl => return (some decl, [])
  | none => match ← matchNode (words line) with
    | some decl => return (some decl, [])
    | none => matchEdge line

end NodeLink.Source
