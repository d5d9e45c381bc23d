import Mathlib
import NodeLink.Geometry.Curve
import NodeLink.Proofs.Outcome

/-!
# Exact geometry

The real line as a model of scalars: computing is exact and never fails. A quotient by zero counts as zero;
geometry divides by a distance only once it is known not to be zero. Every function of curves and clipping
is given here as a plain formula over the reals.
-/

namespace NodeLink

-- The reals keep the arithmetic and the literals they have; those of scalars are found last.
attribute [instance (10)] Scalar.toAdd Scalar.toSub Scalar.toMul Scalar.toDiv Scalar.toNeg
  Scalar.wholeLiteral Scalar.decimalLiteral

/-- The whole number nearest to a real one, the even one of two that are equally near. -/
noncomputable def nearestWhole (x : ℝ) : ℤ :=
  if Int.fract x < 1 / 2 ∨ (Int.fract x = 1 / 2 ∧ Even ⌊x⌋) then ⌊x⌋ else ⌊x⌋ + 1

noncomputable instance Scalar.exact : Scalar ℝ where
  ofWhole n := n
  ofDecimal m negative e := OfScientific.ofScientific m negative e
  settle := .ok
  compare
    | .less, a, b => .ok (decide (a < b))
    | .atMost, a, b => .ok (decide (a ≤ b))
    | .greater, a, b => .ok (decide (b < a))
    | .atLeast, a, b => .ok (decide (b ≤ a))
  eq a b := .ok (decide (a = b))
  top := 0
  isBelowTop _ := .ok true
  magnitude x := |x|
  hypot x y := √(x ^ 2 + y ^ 2)
  pi := Real.pi
  sin := Real.sin
  cos := Real.cos
  atan2 y x := Complex.arg ⟨x, y⟩
  tenth x := nearestWhole (x * 10) / 10

namespace Scalar

theorem zero_literal : @OfNat.ofNat ℝ 0 (wholeLiteral 0) = 0 := Nat.cast_zero
theorem one_literal : @OfNat.ofNat ℝ 1 (wholeLiteral 1) = 1 := Nat.cast_one

theorem ofInt_exact (n : ℤ) : (ofInt n : ℝ) = n := by
  unfold ofInt
  split
  case isTrue negative =>
    change -((n.natAbs : ℕ) : ℝ) = n
    rw [Nat.cast_natAbs, abs_of_neg negative, Int.cast_neg, neg_neg]
  case isFalse nonneg =>
    change ((n.natAbs : ℕ) : ℝ) = n
    rw [Nat.cast_natAbs, abs_of_nonneg (not_lt.mp nonneg)]

theorem least_exact (a b : ℝ) : least a b = .ok (min a b) := by
  change Except.ok (if decide (b < a) = true then b else a) = .ok (min a b)
  by_cases h : b < a
  · rw [if_pos (decide_eq_true h), min_eq_right h.le]
  · rw [if_neg (by simpa using h), min_eq_left (not_lt.mp h)]

theorem greatest_exact (a b : ℝ) : greatest a b = .ok (max a b) := by
  change Except.ok (if decide (a < b) = true then b else a) = .ok (max a b)
  by_cases h : a < b
  · rw [if_pos (decide_eq_true h), max_eq_right h.le]
  · rw [if_neg (by simpa using h), max_eq_left (not_lt.mp h)]

end Scalar

namespace Point

theorem distance_exact (a b : Point ℝ) : a.distance b = √((b.x - a.x) ^ 2 + (b.y - a.y) ^ 2) := rfl

theorem midpoint_exact (a b : Point ℝ) : a.midpoint b = ⟨(a.x + b.x) / 2, (a.y + b.y) / 2⟩ := rfl

theorem midpoint_comm (a b : Point ℝ) : a.midpoint b = b.midpoint a := by
  rw [midpoint_exact, midpoint_exact, add_comm a.x, add_comm a.y]

/-- A point as a complex number, whose distances are those of the plane. -/
def toComplex (p : Point ℝ) : ℂ := ⟨p.x, p.y⟩

theorem toComplex_injective : Function.Injective toComplex := by
  rintro ⟨x, y⟩ ⟨x', y'⟩ h
  obtain ⟨rfl, rfl⟩ := Complex.mk.inj h
  rfl

theorem toComplex_moved (p v : Point ℝ) (factor : ℝ) :
    (p.moved v factor).toComplex = p.toComplex + factor * v.toComplex := by
  apply Complex.ext <;> simp [moved, toComplex]

theorem toComplex_scaled (v : Point ℝ) (factor : ℝ) : (v.scaled factor).toComplex = factor * v.toComplex := by
  apply Complex.ext <;> simp [scaled, toComplex, mul_comm]

theorem distance_eq_dist (a b : Point ℝ) : a.distance b = dist a.toComplex b.toComplex := by
  rw [dist_comm, Complex.dist_eq, Complex.norm_def, Complex.normSq_apply, distance_exact]
  simp [toComplex, sq]

theorem distance_comm (a b : Point ℝ) : a.distance b = b.distance a := by
  rw [distance_eq_dist, distance_eq_dist, dist_comm]

theorem distance_nonneg (a b : Point ℝ) : 0 ≤ a.distance b := Real.sqrt_nonneg _

theorem abs_sub_le_distance (a b : Point ℝ) : |b.x - a.x| ≤ a.distance b ∧ |b.y - a.y| ≤ a.distance b := by
  rw [distance_exact]
  exact ⟨Real.abs_le_sqrt (le_add_of_nonneg_right (sq_nonneg _)),
    Real.abs_le_sqrt (le_add_of_nonneg_left (sq_nonneg _))⟩

theorem abs_distance_sub_le (a b centre : Point ℝ) :
    |a.distance centre - b.distance centre| ≤ a.distance b := by
  simp only [distance_eq_dist]
  exact abs_dist_sub_le _ _ _

end Point

/-- The unit vector from one point to another, zero where they are one point. -/
noncomputable def towards (p q : ℂ) : ℂ := (q - p) / dist p q

theorem towards_symm (p q : ℂ) : towards q p = -towards p q := by
  rw [towards, towards, dist_comm, ← neg_div, neg_sub]

theorem towards_of_dist {p q : ℂ} {d : ℝ} (h : dist p q = d) :
    towards p q = ⟨(q.re - p.re) / d, (q.im - p.im) / d⟩ := by
  rw [towards, h]
  apply Complex.ext <;> simp

theorem fanOut_exact (index count : ℝ) :
    fanOut index count = .ok (if count ≤ 1 then 0 else (index - (count - 1) / 2) * 0.8) := by
  unfold fanOut parallelSpread
  rw [Scalar.one_literal]
  change (if decide (count ≤ 1) = true then Except.ok (0.0 : ℝ)
    else .ok ((index - (count - 1) / 2) * 0.8)) = _
  by_cases h : count ≤ 1
  · rw [if_pos (decide_eq_true h), if_pos h]
    norm_num
  · rw [if_neg (by simpa using h), if_neg h]

namespace Curve

/-- The point of a curve at a parameter. -/
noncomputable def eval (c : Curve ℝ) (t : ℝ) : Point ℝ where
  x := (1 - t) * (1 - t) * c.start.x + 2 * (1 - t) * t * c.control.x + t * t * c.finish.x
  y := (1 - t) * (1 - t) * c.start.y + 2 * (1 - t) * t * c.control.y + t * t * c.finish.y

/-- The symmetric form of a curve, whose diagonal is the curve. -/
noncomputable def blend (c : Curve ℝ) (u v : ℝ) : Point ℝ where
  x := (1 - u) * (1 - v) * c.start.x + ((1 - u) * v + u * (1 - v)) * c.control.x + u * v * c.finish.x
  y := (1 - u) * (1 - v) * c.start.y + ((1 - u) * v + u * (1 - v)) * c.control.y + u * v * c.finish.y

theorem blend_self (c : Curve ℝ) (t : ℝ) : c.blend t t = c.eval t := by
  simp only [blend, eval, Point.mk.injEq]
  constructor <;> ring

/-- The part of a curve between two parameters. -/
noncomputable def part (c : Curve ℝ) (t₀ t₁ : ℝ) : Curve ℝ := ⟨c.eval t₀, c.blend t₀ t₁, c.eval t₁⟩

theorem eval_part (c : Curve ℝ) (t₀ t₁ u : ℝ) : (c.part t₀ t₁).eval u = c.eval (t₀ + u * (t₁ - t₀)) := by
  simp only [part, blend, eval, Point.mk.injEq]
  constructor <;> ring

theorem point_exact (c : Curve ℝ) (t : ℝ) : c.point t = .ok (c.eval t) := by
  unfold point
  rw [Scalar.one_literal]
  rfl

theorem blossom_exact (c : Curve ℝ) (u v : ℝ) : c.blossom u v = .ok (c.blend u v) := by
  unfold blossom
  rw [Scalar.one_literal]
  rfl

theorem between_exact (c : Curve ℝ) (t₀ t₁ : ℝ) : c.between t₀ t₁ = .ok (c.part t₀ t₁) := by
  unfold between part
  rw [blossom_exact, blossom_exact, blossom_exact, blend_self, blend_self]
  rfl

/-- The curve between two points whose bulge is a multiple `h` of their distance, to the left. -/
noncomputable def bow (a b : Point ℝ) (h : ℝ) : Curve ℝ :=
  ⟨a, ⟨(a.x + b.x) / 2 - h * (b.y - a.y), (a.y + b.y) / 2 + h * (b.x - a.x)⟩, b⟩

end Curve

/-- The bulge of an edge of the given curvature, as a multiple of its length. -/
noncomputable def bulge (curvature : ℝ) : ℝ := 0.12 + 0.12 * curvature

theorem controlPoint_exact {a b : Point ℝ} (apart : a.distance b ≠ 0) (curvature : ℝ) :
    controlPoint a b curvature = .ok (Curve.bow a b (bulge curvature)).control := by
  unfold controlPoint
  rw [Scalar.zero_literal]
  change (if decide (a.distance b = 0) = true then Except.ok (a.midpoint b)
    else .ok ⟨(a.x + b.x) / 2 + -(b.y - a.y) / a.distance b * (a.distance b * bulge curvature),
      (a.y + b.y) / 2 + (b.x - a.x) / a.distance b * (a.distance b * bulge curvature)⟩) = _
  rw [if_neg (by simpa using apart)]
  simp only [Curve.bow, Except.ok.injEq, Point.mk.injEq]
  constructor
  · field_simp
    ring
  · field_simp

namespace Centreline

theorem fullCurve_exact {source target : Disc ℝ} (apart : source.centre.distance target.centre ≠ 0)
    (curvature : ℝ) :
    fullCurve source target curvature = .ok (Curve.bow source.centre target.centre (bulge curvature)) :=
  bind_of_ok (controlPoint_exact apart curvature) _

theorem overlapping_exact (source target : Disc ℝ) (distance : ℝ) :
    overlapping source target distance =
      .ok (decide (distance = 0 ∨ distance < source.radius + target.radius)) := by
  unfold overlapping
  rw [Scalar.zero_literal]
  change (if decide (distance = 0) = true then Except.ok true
    else .ok (decide (distance < source.radius + target.radius))) = _
  by_cases h : distance = 0 <;> simp [h]

/-- The straight line between two circles whose centres are `distance` apart. -/
noncomputable def chord (source target : Disc ℝ) (distance : ℝ) : Centreline ℝ :=
  let a := source.centre
  let b := target.centre
  ⟨⟨a.x + (b.x - a.x) / distance * source.radius, a.y + (b.y - a.y) / distance * source.radius⟩, none,
    ⟨b.x - (b.x - a.x) / distance * target.radius, b.y - (b.y - a.y) / distance * target.radius⟩⟩

theorem clipped?_overlapping {source target : Disc ℝ}
    (h : source.centre.distance target.centre = 0 ∨
      source.centre.distance target.centre < source.radius + target.radius) (curved : Bool) (curvature : ℝ) :
    clipped? source target curved curvature = .ok none := by
  have hoverlap := overlapping_exact source target (source.centre.distance target.centre)
  rw [decide_eq_true h] at hoverlap
  exact bind_of_ok hoverlap _

theorem clipped?_exact {source target : Disc ℝ} (apart : source.centre.distance target.centre ≠ 0)
    (clear : source.radius + target.radius ≤ source.centre.distance target.centre) (curved : Bool)
    (curvature : ℝ) :
    clipped? source target curved curvature =
      if curved then some <$> bent source target curvature
      else .ok (some (chord source target (source.centre.distance target.centre))) := by
  have hoverlap := overlapping_exact source target (source.centre.distance target.centre)
  rw [decide_eq_false (not_or.mpr ⟨apart, not_lt.mpr clear⟩)] at hoverlap
  refine (bind_of_ok hoverlap _).trans ?_
  cases curved <;> rfl

end Centreline
end NodeLink
