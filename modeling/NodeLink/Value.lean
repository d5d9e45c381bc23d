import NodeLink.Scalar
import NodeLink.Number.CompactText

/-!
# Values in computations

The scalars of a diagram. Its fields may hold any value, so a computation starts from numbers or from
other values, and comes to such a value again or to the fault that stopped it. Operands count from left to
right: the first fault is the one that the result carries. Whole numbers stay exact among themselves;
beside a double they are first rounded to the nearest one, if there is one. Texts and lists can be joined
and repeated, and that is all they can be computed with.
-/

namespace NodeLink

inductive Value where
  | whole (n : Int)
  | real (x : Float)
  /-- A value that is no number. -/
  | other (value : Json)
  | fault (cause : Fault)

instance : Inhabited Value := ⟨.whole 0⟩

namespace Value

def ofNumber : Number → Value
  | .whole n => .whole n
  | .real x => .real x

/-- A value of a document; truth values count as 1 and 0. -/
def ofJson : Json → Value
  | .number n => ofNumber n
  | .bool b => .whole (if b then 1 else 0)
  | value => .other value

/-- What a computation came to, as a value of a document. A fault leaves none. -/
def toJson : Value → Json
  | .whole n => .whole n
  | .real x => .real x
  | .other value => value
  | .fault _ => .null

def misfit (m : Misfit) : Value := .fault (.misfit m)

def sort : Value → String
  | .whole _ => "int"
  | .real _ => "float"
  | .other value => value.sort
  | .fault _ => ""

def wholeFits (n : Int) : Bool := n.natAbs < Binary64.wholeLimit

/-- Goes on with the double nearest to a whole number. -/
def withReal (n : Int) (f : Float → Value) : Value :=
  if wholeFits n then f (Binary64.ofInt n) else .fault .tooLarge

/-- Combines two values of which at least one is a double, a whole number or a fault, and leaves the rest
to `others`. -/
def combine (onReal : Float → Float → Value) (others : Value → Value → Value) : Value → Value → Value
  | .fault cause, _ => .fault cause
  | _, .fault cause => .fault cause
  | .whole a, .real b => withReal a fun x => onReal x b
  | .real a, .whole b => withReal b (onReal a)
  | a, b => others a b

/-- Joining values of which not both are numbers. -/
def join : Value → Value → Value
  | .other (.text a), .other (.text b) => .other (.text (a ++ b))
  | .other (.list a), .other (.list b) => .other (.list (a ++ b))
  | .other (.text _), b => misfit (.joining "str" b.sort)
  | .other (.list _), b => misfit (.joining "list" b.sort)
  | a, b => misfit (.operands "+" a.sort b.sort)

def add : Value → Value → Value
  | .real a, .real b => .real (a + b)
  | .whole a, .whole b => .whole (a + b)
  | a, b => combine (fun x y => .real (x + y)) join a b

def sub : Value → Value → Value
  | .real a, .real b => .real (a - b)
  | .whole a, .whole b => .whole (a - b)
  | a, b => combine (fun x y => .real (x - y)) (fun a b => misfit (.operands "-" a.sort b.sort)) a b

/-- The number of characters or items up to which something is repeated. -/
def repeatLimit : Nat := Nat.pow 2 24

/-- A text or a list a number of times. -/
def repeated (count : Int) : Json → Value
  | .text s =>
    if repeatLimit < count.toNat * s.length then .fault .tooLarge
    else .other (.text (String.join (List.replicate count.toNat s)))
  | .list items =>
    if repeatLimit < count.toNat * items.length then .fault .tooLarge
    else .other (.list (List.replicate count.toNat items).flatten)
  | value => misfit (.operands "*" "int" value.sort)

def isSequence : Value → Bool
  | .other (.text _) => true
  | .other (.list _) => true
  | _ => false

/-- Multiplying values of which not both are numbers. -/
def multiply : Value → Value → Value
  | .whole n, .other value => repeated n value
  | .other (.record fields), .whole _ => misfit (.operands "*" (Json.record fields).sort "int")
  | .other .null, .whole _ => misfit (.operands "*" Json.null.sort "int")
  | .other value, .whole n => repeated n value
  | a, b =>
    if a.isSequence then misfit (.repeating b.sort)
    else if b.isSequence then misfit (.repeating a.sort)
    else misfit (.operands "*" a.sort b.sort)

def mul : Value → Value → Value
  | .real a, .real b => .real (a * b)
  | .whole a, .whole b => .whole (a * b)
  | a, b => combine (fun x y => .real (x * y)) multiply a b

def divReal (x y : Float) : Value := if y == 0 then .fault (.zeroDivisor true) else .real (x / y)

def divWhole (a b : Int) : Value :=
  if b = 0 then .fault (.zeroDivisor false)
  else
    let q := Number.divWhole a b
    if q.isInf then .fault .quotientTooLarge else .real q

def div : Value → Value → Value
  | .real a, .real b => divReal a b
  | .whole a, .whole b => divWhole a b
  | a, b => combine divReal (fun a b => misfit (.operands "/" a.sort b.sort)) a b

def neg : Value → Value
  | .whole n => .whole (-n)
  | .real x => .real (-x)
  | .other value => misfit (.operand "unary -" value.sort)
  | .fault cause => .fault cause

def settle : Value → Except Fault Value
  | .fault cause => .error cause
  | value => .ok value

def number? : Value → Option Number
  | .whole n => some (.whole n)
  | .real x => some (.real x)
  | _ => none

def compareNumbers : Comparison → Number → Number → Bool
  | .less, a, b => a.lt b
  | .atMost, a, b => a.lt b || a.eq b
  | .greater, a, b => b.lt a
  | .atLeast, a, b => b.lt a || a.eq b

/-- Compares two values; only numbers have an order. -/
def compare (how : Comparison) (a b : Value) : Except Fault Bool :=
  match a, b with
  | .fault cause, _ => .error cause
  | _, .fault cause => .error cause
  | a, b =>
    match a.number?, b.number? with
    | some m, some n => .ok (compareNumbers how m n)
    | _, _ => .error (.misfit (.order how a.sort b.sort))

/-- Whether two values are equal; numbers are compared by what they stand for. -/
def eq (a b : Value) : Except Fault Bool :=
  match a, b with
  | .fault cause, _ => .error cause
  | _, .fault cause => .error cause
  | .other x, .other y => .ok (x.same y)
  | a, b =>
    match a.number?, b.number? with
    | some m, some n => .ok (m.eq n)
    | _, _ => .ok false

def magnitude : Value → Value
  | .whole n => .whole n.natAbs
  | .real x => .real x.abs
  | .other value => misfit (.operand "abs()" value.sort)
  | .fault cause => .fault cause

/-- Goes on with a value as a double. -/
def measured (value : Value) (f : Float → Value) : Value :=
  match value with
  | .real x => f x
  | .whole n => withReal n f
  | .other value => misfit (.measuring value.sort)
  | .fault cause => .fault cause

/-- A function that has no value at infinity. -/
def periodic (f : Float → Float) (x : Float) : Value :=
  if x.isInf then .fault .outsideDomain else .real (f x)

instance : Scalar Value where
  add := add
  sub := sub
  mul := mul
  div := div
  neg := neg
  ofWhole n := .whole n
  ofDecimal m negative e := .real (Float.ofScientific m negative e)
  settle := settle
  compare := compare
  eq := eq
  top := .real Binary64.infinity
  isBelowTop x := compare .less x (.real Binary64.infinity)
  magnitude := magnitude
  hypot x y := x.measured fun x => y.measured fun y => .real (Number.hypotFloat x y)
  pi := .real Number.piFloat
  sin x := x.measured (periodic Float.sin)
  cos x := x.measured (periodic Float.cos)
  atan2 y x := y.measured fun y => x.measured fun x => .real (Number.angleFloat y x)
  tenth
    | .real x => .real (FixedText.nearestTenth x)
    | .other value => misfit (.places value.sort)
    | value => value

/-- Writes a value as a number with decimal places. -/
def written (write : Float → List Char) : Value → Except Fault (List Char)
  | .real x => .ok (write x)
  | .whole n => if wholeFits n then .ok (write (Binary64.ofInt n)) else .error .tooLarge
  | .other (.text _) => .error .textPlaces
  | .other value => .error (.misfit (.places value.sort))
  | .fault cause => .error cause

/-- The value with at most three decimal places. -/
def compact (value : Value) : Except Fault (List Char) := value.written fun x => (Number.real x).compact

def places4 (value : Value) : Except Fault (List Char) := value.written (FixedText.fixed 4)

end Value
end NodeLink
