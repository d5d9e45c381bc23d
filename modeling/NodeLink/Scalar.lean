import NodeLink.Fault

/-!
# Scalars

Coordinates, sizes and angles are scalars. All geometry is written once over this interface, so that what
is computed with values of a diagram can be reasoned about in any other model of the real line. Computing
may fail where a model says so: an intermediate value is settled before it is used any further, and
comparisons are decisions that may fail.
-/

namespace NodeLink

/-- The operations that geometry needs. -/
class Scalar (α : Type) extends Add α, Sub α, Mul α, Div α, Neg α where
  /-- A whole number. -/
  ofWhole : Nat → α
  /-- `m / 10 ^ e` or, without a sign, `m * 10 ^ e`. -/
  ofDecimal : Nat → Bool → Nat → α
  /-- The value itself, unless computing it has failed. -/
  settle : α → Except Fault α
  compare : Comparison → α → α → Except Fault Bool
  eq : α → α → Except Fault Bool
  /-- Stands in for a bound above all values. A model without one may take any value. -/
  top : α
  /-- Takes part in comparisons and is below every bound. -/
  isBelowTop : α → Except Fault Bool
  magnitude : α → α
  /-- The length of the vector with the two given components. -/
  hypot : α → α → α
  pi : α
  sin : α → α
  cos : α → α
  /-- The angle of the vector `(x, y)`, given `y` first. -/
  atan2 : α → α → α
  /-- The nearest multiple of a tenth. -/
  tenth : α → α

namespace Scalar

variable {α : Type} [Scalar α]

instance (priority := low) wholeLiteral (n : Nat) : OfNat α n := ⟨ofWhole n⟩
instance (priority := low) decimalLiteral : OfScientific α := ⟨ofDecimal⟩

def ofInt (n : Int) : α := if n < 0 then -ofWhole n.natAbs else ofWhole n.natAbs

def lt (a b : α) : Except Fault Bool := compare .less a b
def le (a b : α) : Except Fault Bool := compare .atMost a b
def gt (a b : α) : Except Fault Bool := compare .greater a b

/-- The smaller of two; the first of equal ones. -/
def least (a b : α) : Except Fault α := do return if ← lt b a then b else a

/-- The larger of two; the first of equal ones. -/
def greatest (a b : α) : Except Fault α := do return if ← gt b a then b else a

def degrees (angle : α) : α := angle * (180 / pi)
def radians (angle : α) : α := angle * (pi / 180)

end Scalar
end NodeLink
