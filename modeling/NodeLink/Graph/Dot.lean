import NodeLink.Graph.Document
import NodeLink.Text.LetterCase

/-!
# DOT

A graph as the text of a DOT file. Names and values that could be misread are put in quotes. The graph
becomes a directed one as soon as one edge has a head, and then edges without heads say so.
-/

namespace NodeLink.Dot

open NodeLink.Text

/-- A value of an attribute or a name, written as DOT asks for. -/
def isNameStart (c : Char) : Bool := c.toNat < 128 && (c.isAlpha || c == '_')

def isNameChar (c : Char) : Bool := c.toNat < 128 && (c.isAlphanum || c == '_')

def isAsciiDigit (c : Char) : Bool := '0' ≤ c && c ≤ '9'

def withoutFinalFeed (cs : List Char) : List Char :=
  match cs.reverse with
  | '\n' :: rest => rest.reverse
  | _ => cs

/-- Letters, digits and underscores that begin with no digit. -/
def isPlainName : List Char → Bool
  | [] => false
  | c :: cs => isNameStart c && cs.all isNameChar

def withoutMinus : List Char → List Char
  | '-' :: rest => rest
  | cs => cs

/-- Digits with at most one point among or before them, after a minus or none. -/
def isNumeral (cs : List Char) : Bool :=
  let body := withoutMinus cs
  let front := body.takeWhile isAsciiDigit
  match body.dropWhile isAsciiDigit with
  | [] => !front.isEmpty
  | '.' :: rest => rest.all isAsciiDigit && (!front.isEmpty || !rest.isEmpty)
  | _ => false

/-- A text in angle brackets stands for itself: the first character opens, and the last one, or the one
before a final line feed, closes. -/
def isBracketed (cs : List Char) : Bool :=
  match cs with
  | '<' :: rest => rest.getLast? == some '>' || (withoutFinalFeed rest).getLast? == some '>'
  | _ => false

def keywords : List (List Char) :=
  ["node", "edge", "graph", "digraph", "subgraph", "strict"].map String.toList

def isKeyword (cs : List Char) : Bool := keywords.contains (toSmall cs)

/-- Puts a backslash before every quote that has an even number of them in front. `odd` says whether the
number of backslashes read last is odd. -/
def escapeQuotes : Bool → List Char → List Char
  | _, [] => []
  | odd, c :: cs =>
    if c = '"' then (if odd then ['"'] else ['\\', '"']) ++ escapeQuotes false cs
    else c :: escapeQuotes (c == '\\' && !odd) cs

/-- A name or value as it is written: as it is where that is safe, in quotes elsewhere. -/
def quote (cs : List Char) : List Char :=
  if isBracketed cs then cs
  else
    let plain := withoutFinalFeed cs
    if (isPlainName plain || isNumeral plain) && !isKeyword cs then cs
    else '"' :: escapeQuotes false cs ++ ['"']

/-- The end of an edge: a node, and after a colon a port, and after another colon a compass point. -/
def quoteEnd (cs : List Char) : List Char :=
  let node := cs.takeWhile (· ≠ ':')
  let rest := (cs.dropWhile (· ≠ ':')).drop 1
  if rest.isEmpty then quote node
  else
    let port := rest.takeWhile (· ≠ ':')
    let compass := (rest.dropWhile (· ≠ ':')).drop 1
    quote node ++ ':' :: quote port ++ (if compass.isEmpty then [] else ':' :: compass)

/-- An attribute as a name and a value; null values are passed over. -/
abbrev Attribute := String × Json

def sorted (attrs : List Attribute) : List Attribute := attrs.mergeSort fun a b => a.1 ≤ b.1

def quoteJson (value : Json) : Except Fault (List Char) :=
  match value with
  | .text s => .ok (quote s.toList)
  | value => .error (.misfit (.text value.sort))

def assignment (a : Attribute) : Except Fault (List Char) := do
  return quote a.1.toList ++ '=' :: (← quoteJson a.2)

def assignments (attrs : List Attribute) : Except Fault (List (List Char)) :=
  (sorted (attrs.filter fun a => !a.2.isNull)).mapM assignment

/-- The assignments of a label and of other attributes, the label first. -/
def labelled (label : Json) (attrs : List Attribute) : Except Fault (List (List Char)) := do
  let first ← if label.isNull then pure [] else do pure ["label=".toList ++ (← quoteJson label)]
  return first ++ (← assignments attrs)

def spaced : List (List Char) → List Char
  | [] => []
  | [cs] => cs
  | cs :: more => cs ++ ' ' :: spaced more

/-- Attributes in brackets, nothing if there are none. -/
def bracketed (parts : List (List Char)) : List Char :=
  if parts.isEmpty then [] else ' ' :: '[' :: spaced parts ++ [']']

/-- The three hexadecimal digits of a short colour. -/
def shortHex? (cs : List Char) : Option (List Char) :=
  match withoutFinalFeed cs with
  | ['#', a, b, c] => if [a, b, c].all fun d => (hexValue? d).isSome then some [a, b, c] else none
  | _ => none

/-- A colour with two digits for each part. -/
def longColor (color : Json) : Except Fault Json :=
  if !color.isGiven then .ok color
  else match color with
    | .text s => .ok (match shortHex? s.toList with
      | some ds => .text (String.ofList ('#' :: ds.flatMap fun d => [d, d]))
      | none => color)
    | value => .error (.misfit (.text value.sort))

/-- The diameter of a node in inches, at 72 points to the inch. -/
def diameter (size : Json) : Except Fault Value := Value.settle (2 * Value.ofJson size / .real 72.0)

/-- The position of a node, with the vertical axis turned upwards. -/
def position (n : Node) : Except Fault (List Attribute) := do
  if n.hasPosition then
    let x ← (Value.ofJson n.x).places4
    let y ← (Value.ofJson n.y).neg.places4
    return [("pos", .text (String.ofList (x ++ ',' :: y)))]
  else return []

def nodeLine (n : Node) : Except Fault (List Char) := do
  let diameter ← diameter n.size
  let color ← longColor n.color
  let size := Json.text (String.ofList (← diameter.places4))
  let pos ← position n
  let id ← quoteJson n.id
  let parts ← labelled n.label ([("shape", .text "circle"), ("style", .text "filled"),
    ("fillcolor", color), ("width", size), ("height", size), ("fixedsize", .text "true")] ++ pos)
  return '\t' :: id ++ bracketed parts ++ ['\n']

/-- What an edge of a directed graph says about its heads. -/
def direction (kind : EdgeKind) : List Attribute :=
  if kind.startArrow then [("dir", .text "both")]
  else if kind.endArrow then []
  else [("dir", .text "none")]

def endText (id : Json) : Except Fault (List Char) := do return quoteEnd (← id.text? "partition").toList

def edgeLine (directed : Bool) (e : Edge) : Except Fault (List Char) := do
  let source ← endText e.source
  let target ← endText e.target
  let parts ← labelled (e.label.orElse (.text ""))
    ([("penwidth", .text (Fault.textOf e.size))] ++ (if directed then direction e.kind else []))
  return '\t' :: source ++ (if directed then " -> ".toList else " -- ".toList) ++ target ++ bracketed parts ++
    ['\n']

/-- The two parts of a value that is made of two. -/
def twoParts (value : Json) : Except Fault (Json × Json) :=
  match value.items? with
  | .ok [first, second] => .ok (first, second)
  | .ok items => .error (.wrongCount (2 < items.length))
  | .error _ => .error (.misfit (.unpacking value.sort))

/-- The attributes of a record by name, or of a list of pairs in order. A null value is passed over before
its name is looked at. -/
def further (attributes : Json) : Except Fault (List (List Char)) := do
  match attributes with
  | .record fields => assignments fields
  | value =>
    let parts ← (← value.items?).mapM fun item => do
      let (name, value) ← twoParts item
      if value.isNull then return []
      else return [(← quoteJson name) ++ '=' :: (← quoteJson value)]
    return parts.flatten

/-- What settings are for, if they name it: the graph, or all nodes or edges. No setting has the name of the
graph itself. -/
def targetOf? (settings : List Attribute) : Except Fault (Option (List Char)) := do
  if (Json.field? "self" settings).isSome then throw (.misfit (.unknownField "self"))
  match Json.field? "kw" settings with
  | none => return none
  | some .null => return none
  | some value =>
    let name := (← value.text? "lower").toList
    if ["graph", "node", "edge"].contains (String.ofList (toSmall name)) then return some name
    else throw (.unknownStatement (String.ofList name))

/-- The names in settings that are no attributes. -/
def reserved : List String := ["kw", "_attributes"]

/-- One line of attributes, by name; those in a setting of their own come after the others. -/
def settingsLine (settings : List Attribute) : Except Fault (List Char) := do
  let target ← targetOf? settings
  let own := settings.filter fun setting => !reserved.contains setting.1
  let more := (Json.field? "_attributes" settings).getD .null
  if own.isEmpty && !more.isGiven then return []
  else
    let first ← assignments own
    let parts := first ++ (← if more.isGiven then further more else pure [])
    return '\t' :: (match target with
      | none => spaced parts
      | some name => name ++ bracketed parts) ++ ['\n']

/-- The lines before the statements: the title as a comment, and the opening of the graph. -/
def opening (directed : Bool) (title : Json) : Except Fault (List Char) := do
  let word := if directed then "digraph ".toList else "graph ".toList
  if title.isGiven then
    return '/' :: '/' :: ' ' :: title.spelled ++ '\n' :: word ++ (← quoteJson title) ++ " \x7b\n".toList
  else return word ++ "\x7b\n".toList

def isDirected (g : Graph) : Bool := g.edges.any fun e => e.kind.endArrow

def statements (g : Graph) : Except Fault (List Char) := do
  let nodes ← g.nodes.mapM nodeLine
  let edges ← g.edges.mapM (edgeLine (isDirected g))
  return nodes.flatten ++ edges.flatten

/-- The DOT text of a graph, with settings for the whole graph at the end. -/
def print (g : Graph) (settings : List Attribute) : Except Fault String := do
  let body ← statements g
  let last ← settingsLine settings
  let first ← opening (isDirected g) g.title
  return String.ofList (first ++ body ++ last ++ "\x7d\n".toList)

end NodeLink.Dot
