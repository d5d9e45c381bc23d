import NodeLink.Number.Basic

/-!
# Compact decimals

Numbers in markup have at most three decimal places and no zeros at the end; a zero has no sign.
-/

namespace NodeLink.CompactText

/-- Drops zeros at the end of a decimal with places, and then a point at the end. -/
def withoutEndZeros (cs : List Char) : List Char :=
  (((cs.reverse.dropWhile (· == '0')).dropWhile (· == '.'))).reverse

def viewText (v : FloatView) : List Char :=
  let cs := match v with
    | .finite .. => withoutEndZeros (FixedText.fixedView 3 v)
    | _ => FixedText.specialText v
  if cs = ['-', '0'] ∨ cs = [] then ['0'] else cs

end NodeLink.CompactText

namespace NodeLink.Number

/-- The number with at most three decimal places. -/
def compact (x : Number) : List Char := CompactText.viewText (Binary64.view x.toFloat)

end NodeLink.Number
