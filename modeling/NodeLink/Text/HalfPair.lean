/-!
# Halves of pairs

Some formats write a character beyond the first 65536 as a pair of halves. A half that stands alone is no
character: it is carried by a private character that nothing else is written with, and counts as the half.
-/

namespace NodeLink.Text

/-- The distance from a half to the private character that carries it. -/
def halfShift : Nat := 0x100000

def isHighHalf (n : Nat) : Bool := 0xD800 ≤ n && n ≤ 0xDBFF
def isLowHalf (n : Nat) : Bool := 0xDC00 ≤ n && n ≤ 0xDFFF

def isHalf (n : Nat) : Bool := 0xD800 ≤ n && n ≤ 0xDFFF

/-- The character of a code unit, or the one that carries a half. -/
def unitChar (n : Nat) : Char := if isHalf n then Char.ofNat (halfShift + n) else Char.ofNat n

/-- Whether a character carries a half. -/
def carriesHalf (c : Char) : Bool := isHalf (c.toNat - halfShift)

/-- The number of a character; one that carries a half counts as the half. -/
def codeOf (c : Char) : Nat := if carriesHalf c then c.toNat - halfShift else c.toNat

end NodeLink.Text
