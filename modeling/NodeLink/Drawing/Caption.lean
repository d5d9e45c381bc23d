import NodeLink.Drawing.Options
import NodeLink.Geometry.Curve

/-!
# Captions

Where the text of an edge or a node goes and how large it is. A caption is as large as its place allows,
within bounds, and left out where it could not be read. Along a straight edge it stands beside the line;
along a curved one it follows a flatter curve on the inner side, always from left to right. Of the text
itself only the number of its characters counts here.
-/

namespace NodeLink

open Scalar

variable {α : Type} [Scalar α]

namespace Caption

def charWidth : α := 0.6
/-- The share of an edge's bulge that the curve under its caption keeps. -/
def flatten : α := 0.6
def nodeGap : α := 5

def textWidth (text : Json) (fontSize : α) : Except Fault α := do
  settle (ofWhole (← text.length?) * fontSize * charWidth)

/-- Pixels of the screen for one unit of the drawing. -/
def viewportScale (width height referenceSize : α) : Except Fault α := do
  let extent ← greatest width height
  if ← le extent 0 then return 1.0 else settle (referenceSize / extent)

/-- The largest font size at which a text of the given length fits into a box, without regard to what can
be read. -/
def fittingSize (style : Style α) (text : Json) (width height : α) : Except Fault α := do
  let wide ← settle (width * style.fillRatio)
  let byWidth ← settle (wide / (ofWhole (← text.length?) * charWidth))
  let byHeight ← settle (height * style.fillRatio)
  least (← least byWidth byHeight) style.maxFont

/-- Whether there is nothing to be written or no room for it. -/
def hasNoPlace (text : Json) (width height : α) : Except Fault Bool := do
  if !text.isGiven then return true
  else if ← le width 0 then return true
  else le height 0

/-- The font size for a text in a box, zero if the text is to be left out. -/
def fontSize (style : Style α) (text : Json) (width height scale : α) : Except Fault α := do
  if ← hasNoPlace text width height then return 0.0
  else
    let size ← fittingSize style text width height
    if ← lt (size * scale) style.hideBelow then return 0.0 else greatest size style.minFont

/-- The height of the strip beside an edge that its caption may take. -/
def band (thickness : α) : Except Fault α := greatest (thickness * 2 + 12) 10

/-- How far the middle of a caption is off the middle of its edge. -/
def offset (thickness fontSize : α) : Except Fault α := settle (thickness / 2 + fontSize * 0.75)

/-- An angle in degrees, turned round where text along it would stand on its head. -/
def upright (angle : α) : Except Fault α := do
  if ← gt angle 90 then settle (angle - 180)
  else if ← lt angle (-90) then settle (angle + 180)
  else return angle

/-- How a caption lies: turned about its middle, or along a curve. -/
inductive Lie (α : Type) where
  | turned (angle : α)
  | along (curve : Curve α)

/-- A caption in its place, with a circle around it that holds it. -/
structure Placed (α : Type) where
  fontSize : α
  lie : Lie α
  around : Disc α

/-- The radius of the circle around a caption. -/
def reach (text : Json) (fontSize : α) : Except Fault α := do
  settle ((← textWidth text fontSize) / 2 + fontSize)

/-- A caption beside the middle of a straight edge. -/
def besideLine (start finish : Point α) (text : Json) (fontSize thickness : α) : Except Fault (Placed α) := do
  let mid ← (start.midpoint finish).settle
  let angle ← upright (degrees (atan2 (finish.y - start.y) (finish.x - start.x)))
  let off ← offset thickness fontSize
  let turn ← settle (radians angle)
  let centre ← Point.settle ⟨mid.x + sin turn * off, mid.y - cos turn * off⟩
  return { fontSize, lie := .turned angle, around := ⟨centre, ← reach text fontSize⟩ }

/-- The direction to the inner side of a curve with the given bulge, across the chord if there is none. -/
def inward (c : Curve α) (bulge : Point α) : Except Fault (Point α) := do
  let depth ← settle (hypot bulge.x bulge.y)
  if ← gt depth 0 then Point.settle ⟨-bulge.x / depth, -bulge.y / depth⟩
  else
    let length ← settle (hypot (c.finish.x - c.start.x) (c.finish.y - c.start.y))
    let chord := if ← eq length 0 then 1.0 else length
    Point.settle ⟨(c.finish.y - c.start.y) / chord, -(c.finish.x - c.start.x) / chord⟩

/-- The curve that the caption of a curved edge follows. -/
def innerCurve (c : Curve α) (off : α) : Except Fault (Curve α) := do
  let mid ← (c.start.midpoint c.finish).settle
  let bulge ← Point.settle ⟨c.control.x - mid.x, c.control.y - mid.y⟩
  let shift ← ((← inward c bulge).scaled off).settle
  let start ← Point.settle ⟨c.start.x + shift.x, c.start.y + shift.y⟩
  let finish ← Point.settle ⟨c.finish.x + shift.x, c.finish.y + shift.y⟩
  let control ← Point.settle ⟨mid.x + bulge.x * flatten + shift.x, mid.y + bulge.y * flatten + shift.y⟩
  if ← gt start.x finish.x then return ⟨finish, control, start⟩ else return ⟨start, control, finish⟩

def apex (c : Curve α) : Except Fault (Point α) :=
  Point.settle
    ⟨0.25 * c.start.x + 0.5 * c.control.x + 0.25 * c.finish.x,
      0.25 * c.start.y + 0.5 * c.control.y + 0.25 * c.finish.y⟩

/-- A caption along the inner side of a curved edge. -/
def alongCurve (c : Curve α) (text : Json) (fontSize thickness : α) : Except Fault (Placed α) := do
  let inner ← innerCurve c (← offset thickness fontSize)
  let centre ← apex inner
  return { fontSize, lie := .along inner, around := ⟨centre, ← reach text fontSize⟩ }

/-- The caption of an edge, unless it is empty or too small to read. -/
def place? (style : Style α) (c : Centreline α) (text : Json) (thickness scale : α) :
    Except Fault (Option (Placed α)) := do
  if !text.isGiven then return none
  else
    let chord ← settle (hypot (c.finish.x - c.start.x) (c.finish.y - c.start.y))
    let size ← fontSize style text chord (← band thickness) scale
    if ← le size 0 then return none
    else match c.toCurve? with
      | some curve => return some (← alongCurve curve text size thickness)
      | none => return some (← besideLine c.start c.finish text size thickness)

def nodeFontSize (radius : α) : Except Fault α := do
  settle (tenth (← least 16 (← greatest 5 (radius * 0.3))))

/-- The caption of a node stands to the right of its circle. -/
def nodeAnchor (disc : Disc α) (fontSize : α) : Except Fault (Point α) :=
  Point.settle ⟨disc.centre.x + disc.radius + nodeGap, disc.centre.y + fontSize / 3⟩

/-- The size and the place of a node's caption, if there is one and it can be read. -/
def ofNode? (style : Style α) (disc : Disc α) (text : Json) (scale : α) :
    Except Fault (Option (α × Point α)) := do
  if !text.isGiven then return none
  else
    let size ← nodeFontSize disc.radius
    if ← lt (size * scale) style.hideBelow then return none
    else return some (size, ← nodeAnchor disc size)

end Caption
end NodeLink
