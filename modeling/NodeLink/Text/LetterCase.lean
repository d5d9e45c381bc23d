/-!
# Letter case

Keywords and names of colours are compared without regard to letter case, and all of them are written in
ASCII. So only letters whose small form has an ASCII letter in it matter.
-/

namespace NodeLink.Text

/-- The small form of a letter where it has ASCII in it: the letters A to Z, the Kelvin sign, and the
capital I with a dot, whose small form keeps the dot as a mark of its own. -/
def small (c : Char) : List Char :=
  if 'A' ≤ c ∧ c ≤ 'Z' then [Char.ofNat (c.toNat + 32)]
  else if c = '\u212A' then ['k']
  else if c = '\u0130' then ['i', '\u0307']
  else [c]

def toSmall (cs : List Char) : List Char := cs.flatMap small

end NodeLink.Text
