import NodeLink.Drawing.Caption
import NodeLink.Geometry.PathText
import NodeLink.Svg.Markup

/-!
# Captions in markup

The text element of a placed caption, and the path it follows where it lies along a curve.
-/

namespace NodeLink

def Path.shortened (o : Outline Value) : Except Fault (List Char) := do Path.optimize (← Path.text o)

/-- The characters of a value that is to be written as text. -/
def Json.written? (value : Json) : Except Fault (List Char) := do return (← value.text? "replace").toList

/-- A caption as it is drawn: its text, the definitions it needs, and the circle around it. -/
structure DrawnCaption where
  text : Markup
  defs : Option Markup
  around : Disc Value

namespace Caption

def fontFamily : List Char := "Arial, sans-serif".toList

/-- What the text elements of captions have in common. -/
def fontAttrs (color : Json) (fontSize : Value) : Except Fault (List Attr) := do
  return [.ofText "fill" (← color.written?), .ofPlain "font-size" (← fontSize.compact),
    .ofPlain "font-family" fontFamily]

def turnText (angle x y : List Char) : List Char :=
  "rotate(".toList ++ Path.joined [',', ' '] [angle, x, y] ++ [')']

/-- The text element of a turned caption. -/
def turnedMarkup (text color : Json) (fontSize angle : Value) (p : Point Value) : Except Fault Markup := do
  let x ← p.x.compact
  let y ← p.y.compact
  let turn := turnText (← angle.compact) x y
  let font ← fontAttrs color fontSize
  return .element "text".toList
    ([.ofPlain "x" x, .ofPlain "y" y, .ofPlain "text-anchor" "middle".toList,
      .ofPlain "dominant-baseline" "middle".toList, .ofPlain "transform" turn] ++ font)
    [.text (← text.written?)]

/-- The text element of a caption that follows the path of the given id. -/
def followingMarkup (text color : Json) (pathId : List Char) (fontSize : Value) : Except Fault Markup := do
  let font ← fontAttrs color fontSize
  return .element "text".toList font
    [.element "textPath".toList
      [.ofPlain "href" ('#' :: pathId), .ofPlain "startOffset" "50%".toList,
        .ofPlain "text-anchor" "middle".toList, .ofPlain "dominant-baseline" "central".toList]
      [.text (← text.written?)]]

def pathMarkup (pathId : List Char) (c : Curve Value) : Except Fault Markup := do
  let data ← Path.shortened [.move c.start, .quadratic c.control c.finish]
  return .empty "path".toList [.ofPlain "id" pathId, .ofPlain "d" data] true

/-- A placed caption with its text, its colour and the id of the path it may need. -/
def draw (placed : Placed Value) (text color : Json) (pathId : List Char) : Except Fault DrawnCaption := do
  match placed.lie with
  | .turned angle =>
    return ⟨← turnedMarkup text color placed.fontSize angle placed.around.centre, none, placed.around⟩
  | .along curve =>
    let path ← pathMarkup pathId curve
    return ⟨← followingMarkup text color pathId placed.fontSize, some path, placed.around⟩

/-- The caption of a node of the given size and place. -/
def standingMarkup (text : Json) (fontSize : Value) (p : Point Value) : Except Fault Markup := do
  return .element "text".toList
    [.ofPlain "x" (← p.x.compact), .ofPlain "y" (← p.y.compact), .ofPlain "font-size" (← fontSize.compact),
      .ofPlain "fill" "black".toList, .ofPlain "dominant-baseline" "middle".toList]
    [.text (← text.written?)]

/-- The caption of a node, if there is one and it can be read. -/
def nodeMarkup (style : Style Value) (disc : Disc Value) (text : Json) (scale : Value) :
    Except Fault (List Markup) := do
  match ← ofNode? style disc text scale with
  | none => return []
  | some (size, p) => return [← standingMarkup text size p]

end Caption
end NodeLink
