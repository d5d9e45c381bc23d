import NodeLink.Number.Basic
import NodeLink.Text.Blank

/-!
# Reading numbers

A number in a text may have blanks around it, digits of any script, and single underscores between
digits. A decimal becomes the double nearest to it.
-/

namespace NodeLink.Number

open NodeLink.Text

/-- The double nearest to `digits * 10 ^ exponent`. Far outside the range of doubles the power of ten
need not be formed. -/
def ofDecimal (neg : Bool) (digits : Nat) (exponent : Int) : Float :=
  let top := exponent + (digitsOf digits).length
  if digits = 0 ∨ top < -400 then Binary64.nearest neg 0 1
  else if 400 < top then
    Binary64.nearest neg (Nat.pow 2 1024) 1
  else
    let (num, den) := FixedText.shiftDecimal digits 1 (-exponent)
    Binary64.nearest neg num den

/-- The digits in front, and the text after them. An underscore is passed over where a digit stands on
both sides of it; `after` says whether one stands before. -/
def digitRunFrom : Bool → List Char → List Char × List Char
  | _, [] => ([], [])
  | after, c :: cs =>
    if isDigit c then
      let (more, rest) := digitRunFrom true cs
      (c :: more, rest)
    else if c == '_' && after && (cs.head?.map isDigit).getD false then digitRunFrom false cs
    else ([], c :: cs)

def digitRun (cs : List Char) : List Char × List Char := digitRunFrom false cs

/-- A sign in front, true for minus. -/
def takeSign : List Char → Bool × List Char
  | '-' :: cs => (true, cs)
  | '+' :: cs => (false, cs)
  | cs => (false, cs)

/-- Drops the blanks that may stand around a number: all blanks but the information separators. -/
def trimNumber (cs : List Char) : List Char :=
  let blank (c : Char) : Bool := isBlank c && !(28 ≤ c.toNat && c.toNat ≤ 31)
  ((cs.dropWhile blank).reverse.dropWhile blank).reverse

/-- An exponent part, which may be missing. Too long an exponent is as good as a very large one. -/
def exponentPart? : List Char → Option Int
  | [] => some 0
  | c :: cs =>
    if c = 'e' ∨ c = 'E' then
      let (neg, cs) := takeSign cs
      let (digits, rest) := digitRun cs
      if digits.isEmpty || !rest.isEmpty then none
      else
        let size : Int := if 20 < (digits.dropWhile fun d => digitValue? d == some 0).length
          then Int.pow 10 20 else digitsValue digits
        some (if neg then -size else size)
    else none

/-- A decimal without its sign, as digits and a power of ten: digits, a point with digits, an exponent. -/
def decimalParts? (cs : List Char) : Option (Nat × Int) :=
  let (front, rest) := digitRun cs
  let (places, rest) := match rest with
    | '.' :: after => digitRun after
    | _ => ([], rest)
  if front.isEmpty && places.isEmpty then none
  else (exponentPart? rest).map fun e => (digitsValue (front ++ places), e - places.length)

/-- The double nearest to a decimal. -/
def decimal? (neg : Bool) (cs : List Char) : Option Float :=
  (decimalParts? cs).map fun (digits, exponent) => ofDecimal neg digits exponent

/-- The double that a text stands for: a decimal, or a name of what is no ordinary number. -/
def readFloat? (text : List Char) : Option Float :=
  let (neg, cs) := takeSign (trimNumber text)
  let name := String.ofList (cs.map Char.toLower)
  if name = "nan" then some Binary64.undefined
  else if name = "inf" ∨ name = "infinity" then
    some (if neg then -Binary64.infinity else Binary64.infinity)
  else decimal? neg cs

/-- The whole number that a text stands for, if it has not too many digits. -/
def readWhole? (text : List Char) : Option Int :=
  let (neg, cs) := takeSign (trimNumber text)
  let (digits, rest) := digitRun cs
  if digits.isEmpty || !rest.isEmpty then none
  else (wholeOfDigits? digits).map fun n => if neg then -(n : Int) else n

end NodeLink.Number
