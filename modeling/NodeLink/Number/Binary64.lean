/-!
# Doubles as exact numbers

A double stands for a sign and `m * 2 ^ e`, or for no number. `view` takes a double apart and `nearest`
finds the double closest to a fraction, a half going to the even neighbour. All arithmetic here is exact.
-/

namespace NodeLink

/-- What a double stands for: `finite neg m e` is `m * 2 ^ e` with the sign in front. -/
inductive FloatView where
  | undefined
  | infinite (neg : Bool)
  | finite (neg : Bool) (m : Nat) (e : Int)
  deriving DecidableEq, Repr

namespace Binary64

def hiddenBit : Nat := Nat.pow 2 52

/-- Takes the 64 bits of a double apart. -/
def viewBits (bits : Nat) : FloatView :=
  let neg := decide (Nat.pow 2 63 ≤ bits)
  let exponent := bits / hiddenBit % 2048
  let fraction := bits % hiddenBit
  if exponent = 2047 then if fraction = 0 then .infinite neg else .undefined
  else if exponent = 0 then .finite neg fraction (-1074)
  else .finite neg (hiddenBit + fraction) (exponent - 1075)

def view (x : Float) : FloatView := viewBits x.toBits.toNat

/-- The quotient of two whole numbers, to the nearest; a half goes to the even neighbour. -/
def roundDiv (num den : Nat) : Nat :=
  let q := num / den
  let r := num % den
  if den < 2 * r then q + 1
  else if 2 * r = den then q + q % 2
  else q

/-- `num / den / 2 ^ e` as a fraction. -/
def scaleDown (num den : Nat) (e : Int) : Nat × Nat :=
  if e < 0 then (num * Nat.pow 2 (-e).toNat, den) else (num, den * Nat.pow 2 e.toNat)

/-- The power of two by which a positive fraction becomes a number of 53 bits, but not below the
smallest power a double has. -/
def gridOf (num den : Nat) : Int :=
  let guess : Int := num.log2 - den.log2 - 52
  let (a, b) := scaleDown num den guess
  max (if a < b * hiddenBit then guess - 1 else guess) (-1074)

/-- Bits of the double nearest to a fraction with a positive denominator; too large a fraction gives
infinity. -/
def nearestBits (num den : Nat) : Nat :=
  if num = 0 then 0
  else
    let e := gridOf num den
    let (a, b) := scaleDown num den e
    let m := roundDiv a b
    let bits := if m < hiddenBit then m else ((e + 1074).toNat) * hiddenBit + m
    min bits (2047 * hiddenBit)

/-- The double nearest to a signed fraction with a positive denominator. -/
def nearest (neg : Bool) (num den : Nat) : Float :=
  let bits := nearestBits num den
  Float.ofBits (UInt64.ofNat (if neg then Nat.pow 2 63 + bits else bits))

def infinity : Float := Float.ofBits (UInt64.ofNat (2047 * hiddenBit))
def undefined : Float := Float.ofBits (UInt64.ofNat (2047 * hiddenBit + hiddenBit / 2))

/-- The fraction `m * 2 ^ e`. -/
def fraction (m : Nat) (e : Int) : Nat × Nat :=
  if e < 0 then (m, Nat.pow 2 (-e).toNat) else (m * Nat.pow 2 e.toNat, 1)

def ofInt (n : Int) : Float :=
  if n.natAbs < Nat.pow 2 53 then Float.ofInt n else nearest (decide (n < 0)) n.natAbs 1

/-- Whole numbers from here on are further from zero than any double, rounding included. -/
def wholeLimit : Nat := Nat.pow 2 1024 - Nat.pow 2 970

end Binary64
end NodeLink
