import NodeLink.Number.FixedText
import NodeLink.Number.ShortestText

/-!
# Numbers

A number of a diagram is a whole number of any size or a double. Whole numbers stay exact among
themselves; beside a double they are first rounded to the nearest one. A quotient is always a double, the
one nearest to the exact quotient when both parts are whole.
-/

namespace NodeLink

inductive Number where
  | whole (n : Int)
  | real (x : Float)
  deriving Repr

instance : Inhabited Number := ⟨.whole 0⟩

namespace Number

def toFloat : Number → Float
  | .whole n => Binary64.ofInt n
  | .real x => x

/-- Whether the number has a place among the doubles: a double has, and a whole number that is not too
far from zero. -/
def fits : Number → Bool
  | .whole n => n.natAbs < Binary64.wholeLimit
  | .real _ => true

/-- Combines exactly if both are whole and as doubles otherwise. -/
def combine (onWhole : Int → Int → Int) (onReal : Float → Float → Float) : Number → Number → Number
  | .whole a, .whole b => .whole (onWhole a b)
  | .real a, .real b => .real (onReal a b)
  | a, b => .real (onReal a.toFloat b.toFloat)

def add : Number → Number → Number := combine (· + ·) (· + ·)
def sub : Number → Number → Number := combine (· - ·) (· - ·)
def mul : Number → Number → Number := combine (· * ·) (· * ·)

def neg : Number → Number
  | .whole n => .whole (-n)
  | .real x => .real (-x)

def divWhole (a b : Int) : Float :=
  if b = 0 then Binary64.ofInt a / 0
  else if a.natAbs < Nat.pow 2 53 ∧ b.natAbs < Nat.pow 2 53 then Float.ofInt a / Float.ofInt b
  else Binary64.nearest (decide (a < 0) != decide (b < 0)) a.natAbs b.natAbs

def div : Number → Number → Number
  | .whole a, .whole b => .real (divWhole a b)
  | a, b => .real (a.toFloat / b.toFloat)

/-- Compares a whole number with `m * 2 ^ e`, exactly. -/
def compareExact (n : Int) (neg : Bool) (m : Nat) (e : Int) : Ordering :=
  let (num, den) := Binary64.fraction m e
  compare (n * den) (if neg then -(num : Int) else num)

/-- Compares a whole number with a double, exactly; nothing compares with what is no number. -/
def compareWhole? (n : Int) (x : Float) : Option Ordering :=
  match Binary64.view x with
  | .undefined => none
  | .infinite neg => some (if neg then .gt else .lt)
  | .finite neg m e => some (compareExact n neg m e)

def lt : Number → Number → Bool
  | .whole a, .whole b => a < b
  | .real a, .real b => a < b
  | .whole a, .real b => compareWhole? a b == some .lt
  | .real a, .whole b => compareWhole? b a == some .gt

def eq : Number → Number → Bool
  | .whole a, .whole b => a == b
  | .real a, .real b => a == b
  | .whole a, .real b => compareWhole? a b == some .eq
  | .real a, .whole b => compareWhole? b a == some .eq

def magnitude : Number → Number
  | .whole n => .whole n.natAbs
  | .real x => .real x.abs

/-- The powers of two by which very large and very small components are scaled before squaring. -/
def farScale : Float := Float.ofBits (UInt64.ofNat ((1023 - 600) * Binary64.hiddenBit))
def nearScale : Float := Float.ofBits (UInt64.ofNat ((1023 + 600) * Binary64.hiddenBit))

/-- Components between these bounds keep all their digits when squared. -/
def farBound : Float := 1e150
def nearBound : Float := 1e-150

/-- The length of a vector, for components of any size. -/
def hypotFloat (x y : Float) : Float :=
  let a := x.abs
  let b := y.abs
  if a.isInf || b.isInf then Binary64.infinity
  else
    let top := if a < b then b else a
    if farBound < top then ((a * farScale) * (a * farScale) + (b * farScale) * (b * farScale)).sqrt * nearScale
    else if top < nearBound then
      ((a * nearScale) * (a * nearScale) + (b * nearScale) * (b * nearScale)).sqrt * farScale
    else (a * a + b * b).sqrt

def piFloat : Float := 3.141592653589793

/-- The angle of the vector `(x, y)`, given `y` first: at most half a turn to either side. -/
def angleFloat (y x : Float) : Float :=
  let angle := Float.atan2 y x
  if angle < -piFloat then -piFloat else if piFloat < angle then piFloat else angle

def isZero (x : Number) : Bool := x.eq (.whole 0)

/-- The text of a number, whole digits or the shortest decimal. -/
def text : Number → List Char
  | .whole n => FixedText.signed (n < 0) (Text.digitsOf n.natAbs)
  | .real x => ShortestText.text x

end Number
end NodeLink
