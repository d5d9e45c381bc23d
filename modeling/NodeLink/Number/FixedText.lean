import NodeLink.Number.Binary64
import NodeLink.Text.Digit

/-!
# Decimals with a fixed number of places

A number is written with a given number of decimal places, or with a given number of digits and an
exponent. The last digit is the nearest one, measured on the exact value; a half goes to the even digit.
-/

namespace NodeLink.FixedText

open NodeLink.Text (digitsOf)

/-- Zeros in front up to the given width. -/
def padLeft (width : Nat) (cs : List Char) : List Char :=
  List.replicate (width - cs.length) '0' ++ cs

/-- A number of units of the last place, with its point. -/
def placed (places units : Nat) : List Char :=
  let digits := padLeft (places + 1) (digitsOf units)
  let whole := digits.take (digits.length - places)
  if places = 0 then whole else whole ++ '.' :: digits.drop (digits.length - places)

def signed (neg : Bool) (cs : List Char) : List Char := if neg then '-' :: cs else cs

/-- How many units of the last place a fraction is. -/
def unitsOf (places num den : Nat) : Nat := Binary64.roundDiv (num * Nat.pow 10 places) den

/-- The text of what has no digits. -/
def specialText : FloatView → List Char
  | .undefined => "nan".toList
  | .infinite neg => signed neg "inf".toList
  | .finite .. => []

/-- The value with the given number of decimal places. A minus sign stays in front of a zero. -/
def fixedView (places : Nat) : FloatView → List Char
  | .finite neg m e =>
    let (num, den) := Binary64.fraction m e
    signed neg (placed places (unitsOf places num den))
  | v => specialText v

def fixed (places : Nat) (x : Float) : List Char := fixedView places (Binary64.view x)

/-- Decimal exponents that a positive fraction may have, from its lengths in bits, the largest first. -/
def exponentCandidates (num den : Nat) : List Int :=
  let guess : Int := ((num.log2 : Int) - den.log2) * 30103 / 100000
  [guess + 2, guess + 1, guess, guess - 1, guess - 2]

/-- Whether `10 ^ d` is at most the fraction. -/
def powerBelow (num den : Nat) (d : Int) : Bool :=
  if d < 0 then den ≤ num * Nat.pow 10 (-d).toNat else den * Nat.pow 10 d.toNat ≤ num

/-- The largest `d` such that `10 ^ d` is at most the fraction. -/
def decimalExponent (num den : Nat) : Int :=
  ((exponentCandidates num den).find? (powerBelow num den)).getD 0

/-- `num / den / 10 ^ d` as a fraction. -/
def shiftDecimal (num den : Nat) (d : Int) : Nat × Nat :=
  if d < 0 then (num * Nat.pow 10 (-d).toNat, den) else (num, den * Nat.pow 10 d.toNat)

/-- An exponent with its sign and at least two digits. -/
def exponentText (d : Int) : List Char :=
  (if d < 0 then '-' else '+') :: padLeft 2 (digitsOf d.natAbs)

/-- One digit, a point, the given number of places and an exponent. -/
def scientificView (places : Nat) : FloatView → List Char
  | .finite neg m e =>
    let (num, den) := Binary64.fraction m e
    let d := if m = 0 then 0 else decimalExponent num den
    let (a, b) := shiftDecimal num den (d - places)
    let units := Binary64.roundDiv a b
    let (units, d) := if Nat.pow 10 (places + 1) ≤ units then (units / 10, d + 1) else (units, d)
    signed neg (placed places units ++ 'e' :: exponentText d)
  | v => specialText v

def scientific (places : Nat) (x : Float) : List Char := scientificView places (Binary64.view x)

/-- The double nearest to the value rounded to one decimal place. -/
def nearestTenth (x : Float) : Float :=
  match Binary64.view x with
  | .finite neg m e =>
    let (num, den) := Binary64.fraction m e
    Binary64.nearest neg (unitsOf 1 num den) 10
  | _ => x

end NodeLink.FixedText
