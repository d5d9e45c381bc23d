import NodeLink.Geometry.Outline
import NodeLink.Number.Reading
import NodeLink.Value

/-!
# Path data

Outlines as the text of path data, and path data made shorter: commands after a move become relative and
all coordinates are rounded to a tenth. Differences are taken between rounded points, so that rounding
does not add up along a path. What is read and written are doubles, but no more is asked of them than stands
in an interface.
-/

namespace NodeLink

/-- What a number of path data can be used for. -/
class Coordinate (α : Type) extends Sub α where
  zero : α
  isZero : α → Bool
  read? : List Char → Option α
  nearestTenth : α → α
  /-- The number with one decimal place. -/
  oneDecimal : α → List Char

namespace Coordinate

instance : Coordinate Float where
  zero := 0.0
  isZero x := match Binary64.view x with
    | .finite _ m _ => m == 0
    | _ => false
  read? := Number.readFloat?
  nearestTenth := FixedText.nearestTenth
  oneDecimal := FixedText.fixed 1

/-- The number in tenths, without a point if it is whole. -/
def tenths {α : Type} [Coordinate α] (x : α) : List Char :=
  let rounded := nearestTenth x
  if isZero rounded then ['0']
  else
    let cs := oneDecimal rounded
    if cs.getLast? = some '0' then cs.take (cs.length - 2) else cs

end Coordinate

namespace PathCommand

variable {α : Type}

def points : PathCommand α → List (Point α)
  | .move p => [p]
  | .line p => [p]
  | .quadratic c p => [c, p]
  | .cubic c d p => [c, d, p]
  | .close => []

def letter : PathCommand α → Char
  | .move _ => 'M'
  | .line _ => 'L'
  | .quadratic .. => 'Q'
  | .cubic .. => 'C'
  | .close => 'Z'

def isLetter (c : Char) : Bool := c == 'M' || c == 'L' || c == 'Q' || c == 'C' || c == 'Z'

/-- The command of a letter with the given coordinates, if there are enough. -/
def ofNumbers? : Char → List α → Option (PathCommand α)
  | 'M', x :: y :: _ => some (.move ⟨x, y⟩)
  | 'L', x :: y :: _ => some (.line ⟨x, y⟩)
  | 'Q', a :: b :: x :: y :: _ => some (.quadratic ⟨a, b⟩ ⟨x, y⟩)
  | 'C', a :: b :: c :: d :: x :: y :: _ => some (.cubic ⟨a, b⟩ ⟨c, d⟩ ⟨x, y⟩)
  | _, _ => none

def map {β : Type} (f : Point α → Point β) : PathCommand α → PathCommand β
  | .move p => .move (f p)
  | .line p => .line (f p)
  | .quadratic c p => .quadratic (f c) (f p)
  | .cubic c d p => .cubic (f c) (f d) (f p)
  | .close => .close

/-- The point that a command ends at; closing a path ends nowhere new. -/
def endPoint? : PathCommand α → Option (Point α)
  | .move p => some p
  | .line p => some p
  | .quadratic _ p => some p
  | .cubic _ _ p => some p
  | .close => none

/-- A command relative to the point before it, with both rounded. A move stays absolute. -/
def relativeTo [Sub α] (origin : Point α) : PathCommand α → PathCommand α
  | .move p => .move p
  | command => command.map fun p => ⟨p.x - origin.x, p.y - origin.y⟩

end PathCommand

namespace Path

variable {α : Type} [Coordinate α]

/-- The point with both coordinates rounded to a tenth. -/
def nearestTenth (p : Point α) : Point α := ⟨Coordinate.nearestTenth p.x, Coordinate.nearestTenth p.y⟩

/-- Makes the commands of a path relative, each to the rounded end point of the one before. -/
def relativeFrom : Point α → List (PathCommand α) → List (PathCommand α)
  | _, [] => []
  | origin, command :: commands =>
    let rounded := command.map nearestTenth
    rounded.relativeTo origin :: relativeFrom (rounded.endPoint?.getD origin) commands

def joined (separator : List Char) : List (List Char) → List Char
  | [] => []
  | [cs] => cs
  | cs :: more => cs ++ separator ++ joined separator more

def pointText (p : Point Value) : Except Fault (List Char) := do
  return (← p.x.compact) ++ ' ' :: (← p.y.compact)

def commandText (c : PathCommand Value) : Except Fault (List Char) := do
  return joined [' '] ([c.letter] :: (← c.points.mapM pointText))

def text (o : Outline Value) : Except Fault (List Char) := do return joined [' '] (← o.mapM commandText)

def tenthsText (p : Point α) : List Char := Coordinate.tenths p.x ++ ',' :: Coordinate.tenths p.y

def shortCommandText : PathCommand α → List Char
  | .move p => 'M' :: tenthsText p
  | c => c.letter.toLower :: joined [','] (c.points.map tenthsText)

/-- The letters of commands, each with the text up to the next one. -/
def pieces : List Char → List (Char × List Char)
  | [] => []
  | c :: cs =>
    if PathCommand.isLetter c then
      (c, cs.takeWhile fun d => !PathCommand.isLetter d) :: pieces cs
    else pieces cs

def number (part : List Char) : Except Fault α :=
  match Coordinate.read? part with
  | some x => .ok x
  | none => .error .notNumeric

/-- The stretches of a text between blanks and commas. -/
def numerals (cs : List Char) : List (List Char) :=
  (Text.splitAtEach (fun c => Text.isBlank c || c == ',') cs).filter (!·.isEmpty)

/-- The numbers of a command, separated by blanks and commas. -/
def numbers (cs : List Char) : Except Fault (List α) := (numerals cs).mapM number

/-- The command of a piece. One with too few numbers does not count. -/
def readPiece (piece : Char × List Char) : Except Fault (Option (PathCommand α)) := do
  if piece.1 = 'Z' then return some .close
  else return PathCommand.ofNumbers? piece.1 (← numbers piece.2)

def read (cs : List Char) : Except Fault (List (PathCommand α)) := do
  return (← (pieces cs).mapM readPiece).filterMap id

/-- Path data made shorter, with coordinates of the given kind. A text without commands stays as it is. -/
def optimizeIn (α : Type) [Coordinate α] (cs : List Char) : Except Fault (List Char) := do
  if (pieces cs).isEmpty then return cs
  else
    let commands : List (PathCommand α) ← read cs
    return ((relativeFrom ⟨Coordinate.zero, Coordinate.zero⟩ commands).map shortCommandText).flatten

def optimize (cs : List Char) : Except Fault (List Char) := optimizeIn Float cs

end Path
end NodeLink
