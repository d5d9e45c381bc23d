import NodeLink.Number.FixedText

/-!
# The shortest decimal that reads back

Every decimal close enough to a double reads back as that double. The text of a double is the one with
the fewest digits, and of those the nearest. Numbers from `10 ^ -4` to below `10 ^ 16` are written with a
point, all others with an exponent.
-/

namespace NodeLink.ShortestText

open NodeLink.Text (digitsOf)
open NodeLink.FixedText

/-- The decimal `digits * 10 ^ exponent`. -/
structure Decimal where
  digits : Nat
  exponent : Int
  deriving DecidableEq, Repr

/-- Four times the lower end, the value and the upper end of the stretch that reads back as `m * 2 ^ e`.
Below a power of two the next double is half as far away. -/
def stretch (m : Nat) (e : Int) : Nat × Nat × Nat :=
  (if m = Binary64.hiddenBit ∧ -1074 < e then 4 * m - 1 else 4 * m - 2, 4 * m, 4 * m + 2)

/-- Whether `c * b`, in the units of `a`, lies between `lo` and `hi`; the ends count when `closed`. -/
def within (closed : Bool) (lo hi c : Nat) : Bool :=
  if closed then lo ≤ c && c ≤ hi else lo < c && c < hi

/-- The neighbour of `m * 2 ^ e` on the grid of `10 ^ d` that reads back, the nearer one if both do. -/
def onGrid? (m : Nat) (e : Int) (d : Int) : Option Nat :=
  let (lo, mid, hi) := stretch m e
  let (unit, den) := shiftDecimal (Binary64.fraction 1 e).1 (4 * (Binary64.fraction 1 e).2) d
  let closed := m % 2 = 0
  let below := mid * unit / den
  let reads (c : Nat) : Bool := within closed (lo * unit) (hi * unit) (c * den)
  match reads below, reads (below + 1) with
  | true, true =>
    let toBelow := mid * unit - below * den
    let toAbove := (below + 1) * den - mid * unit
    some (if toBelow < toAbove then below
      else if toAbove < toBelow then below + 1
      else below + below % 2)
  | true, false => some below
  | false, true => some (below + 1)
  | false, false => none

/-- The first grid, from coarse to fine, that has a decimal which reads back. -/
def shortest (m : Nat) (e : Int) : Decimal :=
  let (num, den) := Binary64.fraction m e
  let top := decimalExponent num den
  let grids : List Int := (List.range 17).map fun (k : Nat) => top - k
  match grids.findSome? fun d => (onGrid? m e d).map fun c => Decimal.mk c d with
  | some decimal => decimal
  | none => ⟨m, 0⟩

/-- Digits without the zeros at the end. -/
def withoutEndZeros (cs : List Char) : List Char := (cs.reverse.dropWhile (· == '0')).reverse

/-- Writes a positive decimal with a point, or with an exponent where it is very large or very small. -/
def Decimal.text (x : Decimal) : List Char :=
  let all := digitsOf x.digits
  let top : Int := x.exponent + all.length - 1
  let digits := match withoutEndZeros all with
    | [] => ['0']
    | ds => ds
  if -4 ≤ top ∧ top < 16 then
    if top < 0 then '0' :: '.' :: List.replicate (-top - 1).toNat '0' ++ digits
    else
      let width := top.toNat + 1
      let whole := digits.take width ++ List.replicate (width - digits.length) '0'
      let rest := digits.drop width
      whole ++ '.' :: (if rest.isEmpty then ['0'] else rest)
  else
    let rest := digits.drop 1
    digits.take 1 ++ (if rest.isEmpty then [] else '.' :: rest) ++ 'e' :: exponentText top

/-- The shortest text of a double. -/
def viewText : FloatView → List Char
  | .finite neg m e => signed neg (if m = 0 then "0.0".toList else (shortest m e).text)
  | v => specialText v

def text (x : Float) : List Char := viewText (Binary64.view x)

end NodeLink.ShortestText
