import NodeLink.Text.Blank
import NodeLink.Text.Digit
import NodeLink.Text.HostChar

/-!
# Host names

A host name with characters beyond ASCII is written in ASCII label by label: the plain characters first,
and then the places and values of all the others as numbers in letters and digits. A label that breaks the
rules for host names has no such form.
-/

namespace NodeLink.Text.HostName

/-- The letter or digit of a value below 36. -/
def digitOf (n : Nat) : Char := if n < 26 then Char.ofNat (97 + n) else Char.ofNat (22 + n)

/-- The value of the last digit at a place: a digit below it ends a number. -/
def threshold (place bias : Nat) : Nat :=
  if place ≤ bias then 1 else if bias + 26 ≤ place then 26 else place - bias

/-- A number as digits of growing places, the fuel bounding how many there are. -/
def numberFrom (bias : Nat) : Nat → Nat → Nat → List Char
  | 0, _, _ => []
  | fuel + 1, place, n =>
    let t := threshold place bias
    if n < t then [digitOf n]
    else digitOf (t + (n - t) % (36 - t)) :: numberFrom bias fuel (place + 36) ((n - t) / (36 - t))

def number (bias n : Nat) : List Char := numberFrom bias (n + 1) 36 n

/-- Divides until the value is small, and says how many places that took. -/
def scaleFrom : Nat → Nat → Nat → Nat
  | 0, place, _ => place
  | fuel + 1, place, delta =>
    if 455 < delta then scaleFrom fuel (place + 36) (delta / 35) else place + 36 * delta / (delta + 38)

/-- The bias after a number was written. -/
def adapted (delta count : Nat) (isFirst : Bool) : Nat :=
  let delta := if isFirst then delta / 700 else delta / 2
  let delta := delta + delta / count
  scaleFrom (delta + 1) 0 delta

/-- Where the writing of numbers stands: the number so far, the bias, how many characters have been
written, and whether no number has been written yet. -/
structure Progress where
  delta : Nat
  bias : Nat
  count : Nat
  isFirst : Bool
  digits : List Char

/-- Passes one character of the label while those of value `n` are being written. -/
def pass (n : Nat) (p : Progress) (c : Char) : Progress :=
  if c.toNat < n then { p with delta := p.delta + 1 }
  else if c.toNat = n then
    { delta := 0, bias := adapted p.delta (p.count + 1) p.isFirst, count := p.count + 1, isFirst := false,
      digits := p.digits ++ number p.bias p.delta }
  else p

/-- Writes the characters of the given values, which stand in order, into a label. -/
def passAll (label : List Char) : Nat → List Nat → Progress → Progress
  | _, [], p => p
  | n, m :: more, p =>
    let p := { p with delta := p.delta + (m - n) * (p.count + 1) }
    let p := label.foldl (pass m) p
    passAll label (m + 1) more { p with delta := p.delta + 1 }

/-- The values beyond ASCII in a label, each once and in order. -/
def wideValues (label : List Char) : List Nat :=
  (((label.filter fun c => 128 ≤ c.toNat).map Char.toNat).mergeSort).eraseDups

/-- The form of a label in ASCII. -/
def punycode (label : List Char) : List Char :=
  let plain := label.filter fun c => c.toNat < 128
  let start : Progress := ⟨0, 72, plain.length, true, []⟩
  (if plain.isEmpty then [] else plain ++ ['-']) ++ (passAll label 128 (wideValues label) start).digits

def isAscii (cs : List Char) : Bool := cs.all fun c => c.toNat < 128

def isBetween (first last : Nat) (c : Char) : Bool := first ≤ c.toNat && c.toNat ≤ last

/-- Whether a character that may stand only beside certain others stands there. -/
def fitsContext (label before : List Char) (c : Char) (after : List Char) : Bool :=
  if c = '\u00B7' then before.head? == some 'l' && after.head? == some 'l'
  else if c = '\u0375' then (after.head?.map (isBetween 0x370 0x3FF)).getD false
  else if c = '\u05F3' || c = '\u05F4' then (before.head?.map (isBetween 0x591 0x5F4)).getD false
  else if c = '\u30FB' then label.any fun d => d != c && (isBetween 0x3041 0x30FF d || isBetween 0x3400 0x9FFF d)
  else if isBetween 0x660 0x669 c then !label.any (isBetween 0x6F0 0x6F9)
  else isBetween 0x6F0 0x6F9 c && !label.any (isBetween 0x660 0x669)

/-- Whether all characters of a label may stand where they do, given those passed already, the last one
first. -/
def allFit (label : List Char) : List Char → List Char → Bool
  | _, [] => true
  | before, c :: after =>
    (isHostChar c || fitsContext label before c after) && allFit label (c :: before) after

def hyphens : List Char := ['-', '-']

def isLabel (label : List Char) : Bool :=
  !label.isEmpty && (label.drop 2).take 2 != hyphens && label.head? != some '-' &&
    label.getLast? != some '-' && !((label.head?.map (isBetween 0x300 0x36F)).getD false) &&
    allFit label [] label

def asciiLead : List Char := ['x', 'n', '-', '-']

/-- The form of a label in ASCII, if it keeps the rules. One that has such a form already stays. -/
def asciiLabel? (label : List Char) : Option (List Char) :=
  let form :=
    if isAscii label then
      match afterLead? asciiLead label with
      | some rest => if rest.isEmpty || rest.getLast? == some '-' then none else some label
      | none => if isLabel label then some label else none
    else if isLabel label then some (asciiLead ++ punycode label)
    else none
  form.filter fun cs => cs.length ≤ 63

def isDot (c : Char) : Bool := c == '.' || c == '\u3002' || c == '\uFF0E' || c == '\uFF61'

def joinLabels : List (List Char) → List Char
  | [] => []
  | [label] => label
  | label :: more => label ++ '.' :: joinLabels more

/-- The form of a host name in ASCII, if all its labels keep the rules. A dot may stand at the end. -/
def ascii? (host : List Char) : Option (List Char) := do
  let parts := splitAtEach isDot host
  let isClosed := parts.length > 1 && (parts.getLast?.getD []).isEmpty
  let labels ← (if isClosed then parts.dropLast else parts).mapM asciiLabel?
  let name := joinLabels labels ++ (if isClosed then ['.'] else [])
  if host.length ≤ 254 && name.length ≤ (if isClosed then 254 else 253) then some name else none

end NodeLink.Text.HostName
