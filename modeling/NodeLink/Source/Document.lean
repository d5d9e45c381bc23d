import NodeLink.Source.Declaration
import NodeLink.Graph.Basic

/-!
# Diagram texts

A diagram text is a list of lines, of which blanks and comments do not count. Its graph is what its
declarations add up to: later titles and later records of a node replace earlier ones, an edge brings in
the nodes it needs, and lines that declare nothing are skipped with a notice.
-/

namespace NodeLink.Source

open NodeLink.Text

/-- The trimmed lines that are neither empty nor comments. -/
def statements (text : List Char) : List (List Char) :=
  ((lines text).map trim).filter fun line => !line.isEmpty && !startsWith commentMark line

/-- What the declarations so far add up to. -/
structure Outline where
  title : String := defaultTitle
  slots : List Slot := []
  edges : List EdgeDecl := []

namespace Outline

def hasNode (o : Outline) (id : String) : Bool := (Graph.slotOf? o.slots (.text id)).isSome

def putNode (o : Outline) (id : String) (n : Node) : Outline :=
  { o with slots := Graph.putNode (.text id) n o.slots }

/-- Brings in a plain node unless there is one already. -/
def needNode (o : Outline) (id : String) : Outline :=
  if o.hasNode id then o else o.putNode id (Node.ofId (.text id))

/-- The value of a text that may be missing. -/
def optional : Option String → Json
  | some s => .text s
  | none => .null

def nodeOf (d : NodeDecl) : Node :=
  .made (.text d.id) .null (.whole d.size) (.text d.color) (optional d.icon) .null .null

/-- Takes one more declaration in. -/
def apply (o : Outline) : Declaration → Outline
  | .title none => o
  | .title (some title) => { o with title := title }
  | .node d => o.putNode d.id (nodeOf d)
  | .edge d =>
    let o := (o.needNode d.source).needNode d.target
    { o with edges := o.edges ++ [d] }

def edgeOf (d : EdgeDecl) : Edge :=
  .made (.text d.source) (.text d.target) (optional d.label) (.whole d.weight) d.kind .null .null

/-- Adds the edge of a declaration, unless one of its ends is missing. -/
def joined (g : Graph) (d : EdgeDecl) : Except Fault Graph := do
  if (← g.hasNode (.text d.source)) && (← g.hasNode (.text d.target)) then
    return (← g.addEdge (edgeOf d)).1
  else return g

def build (o : Outline) : Except Fault Graph := do
  let g ← (o.slots.map (·.node)).foldlM Graph.addNode { title := .text o.title : Graph }
  o.edges.foldlM joined g

end Outline

/-- The characters of a value that is given as a diagram text. What does not count as given is empty. -/
def charsOf (value : Json) : Except Fault (List Char) := do
  return (← (value.orElse (.text "")).text? "splitlines").toList

/-- Reads statements one after the other, from the given outline on. -/
def readStatements : Outline → List (List Char) → Except Fault Outline
  | o, [] => .ok o
  | o, line :: rest => do
    match (← readLine line).1 with
    | some decl => readStatements (o.apply decl) rest
    | none => readStatements o rest

def parse (text : List Char) : Except Fault Graph := do
  (← readStatements {} (statements text)).build

def parseValue (value : Json) : Except Fault Graph := do parse (← charsOf value)

/-- The notices about statements that add nothing, up to one that cannot be read. -/
def noticesOn : List (List Char) → List Notice
  | [] => []
  | line :: rest =>
    match readLine line with
    | .error _ => []
    | .ok (some _, notices) => notices ++ noticesOn rest
    | .ok (none, notices) => notices ++ .skippedLine (String.ofList line) :: noticesOn rest

def notices (text : List Char) : List Notice := noticesOn (statements text)

end NodeLink.Source
