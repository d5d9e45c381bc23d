import NodeLink.Drawing.Caption
import NodeLink.Proofs.Geometry.SubCurves

/-!
# Curves under captions

The caption of a curved edge follows a flatter copy of the edge, moved against its bulge. Along the chord both
curves run at the same pace, so they could meet at equal parameters only; but there the edge bulges at least as
far as its copy, which is moved the other way besides.
-/

namespace NodeLink

open Set

namespace Curve

variable {c : Curve ℝ} {share depth : ℝ}

def chord (c : Curve ℝ) : Point ℝ := ⟨c.finish.x - c.start.x, c.finish.y - c.start.y⟩

/-- The way from the middle of the chord to the control point. -/
noncomputable def bulging (c : Curve ℝ) : Point ℝ :=
  ⟨c.control.x - (c.start.midpoint c.finish).x, c.control.y - (c.start.midpoint c.finish).y⟩

/-- The bulge does not lie along the chord. -/
def IsBent (c : Curve ℝ) : Prop := c.chord.x * c.bulging.y ≠ c.chord.y * c.bulging.x

def reversed (c : Curve ℝ) : Curve ℝ := ⟨c.finish, c.control, c.start⟩

/-- The curve with a share of its bulge, moved by a vector. -/
noncomputable def flattened (c : Curve ℝ) (share : ℝ) (v : Point ℝ) : Curve ℝ where
  start := ⟨c.start.x + v.x, c.start.y + v.y⟩
  control :=
    ⟨(c.start.midpoint c.finish).x + c.bulging.x * share + v.x,
      (c.start.midpoint c.finish).y + c.bulging.y * share + v.y⟩
  finish := ⟨c.finish.x + v.x, c.finish.y + v.y⟩

/-- The curve from its left end to its right one. -/
noncomputable def leftToRight (c : Curve ℝ) : Curve ℝ := if c.finish.x < c.start.x then c.reversed else c

/-! ### Two curves of one pace -/

theorem eval_eq (c : Curve ℝ) (t : ℝ) :
    c.eval t = ⟨c.start.x + t * c.chord.x + 2 * (t * (1 - t)) * c.bulging.x,
      c.start.y + t * c.chord.y + 2 * (t * (1 - t)) * c.bulging.y⟩ := by
  simp only [eval, chord, bulging, Point.midpoint_exact, Point.mk.injEq]
  constructor <;> ring

theorem eval_flattened (c : Curve ℝ) (share t : ℝ) (v : Point ℝ) :
    (c.flattened share v).eval t =
      ⟨c.start.x + t * c.chord.x + 2 * (t * (1 - t)) * share * c.bulging.x + v.x,
        c.start.y + t * c.chord.y + 2 * (t * (1 - t)) * share * c.bulging.y + v.y⟩ := by
  simp only [eval, flattened, chord, bulging, Point.midpoint_exact, Point.mk.injEq]
  constructor <;> ring

theorem IsBent.bulging_ne (h : c.IsBent) : c.bulging.x ≠ 0 ∨ c.bulging.y ≠ 0 := by
  by_contra hzero
  obtain ⟨hx, hy⟩ := not_or.mp hzero
  exact h (by rw [not_not.mp hx, not_not.mp hy, mul_zero, mul_zero])

/-- A copy that is no more bent and moved against the bulge stays off the curve. -/
theorem flattened_off (h : c.IsBent) (hshare : share ≤ 1) (hdepth : 0 < depth) {t u : ℝ}
    (ht : t ∈ Icc (0 : ℝ) 1) : c.eval t ≠ (c.flattened share (c.bulging.scaled (-depth))).eval u := by
  intro hmeet
  rw [eval_eq, eval_flattened, Point.mk.injEq] at hmeet
  obtain ⟨hx, hy⟩ := hmeet
  simp only [Point.scaled] at hx hy
  -- Across the bulge only the pace along the chord counts.
  have hpace : (t - u) * (c.chord.x * c.bulging.y - c.chord.y * c.bulging.x) = 0 := by
    linear_combination c.bulging.y * hx - c.bulging.x * hy
  have htu : t = u := by
    rcases mul_eq_zero.mp hpace with heq | hflat
    · exact sub_eq_zero.mp heq
    · exact absurd (sub_eq_zero.mp hflat) h
  subst u
  have hsum : 0 < 2 * (t * (1 - t)) * (1 - share) + depth := by
    have hweight : 0 ≤ t * (1 - t) := mul_nonneg ht.1 (sub_nonneg.mpr ht.2)
    have hrest : 0 ≤ 1 - share := sub_nonneg.mpr hshare
    positivity
  have hbx : (2 * (t * (1 - t)) * (1 - share) + depth) * c.bulging.x = 0 := by linear_combination hx
  have hby : (2 * (t * (1 - t)) * (1 - share) + depth) * c.bulging.y = 0 := by linear_combination hy
  rcases h.bulging_ne with hne | hne
  · exact hne ((mul_eq_zero.mp hbx).resolve_left hsum.ne')
  · exact hne ((mul_eq_zero.mp hby).resolve_left hsum.ne')

/-! ### Direction -/

theorem bulging_reversed (c : Curve ℝ) : c.reversed.bulging = c.bulging := by
  simp only [bulging, reversed, Point.midpoint_comm c.finish]

theorem IsBent.reversed (h : c.IsBent) : c.reversed.IsBent := by
  intro hflat
  rw [bulging_reversed] at hflat
  simp only [chord, Curve.reversed] at hflat
  exact h (by simp only [chord]; linear_combination -hflat)

theorem flattened_reversed (c : Curve ℝ) (share : ℝ) (v : Point ℝ) :
    c.reversed.flattened share v = (c.flattened share v).reversed := by
  simp only [flattened, bulging_reversed]
  simp only [reversed, Point.midpoint_comm c.finish]

theorem eval_reversed (c : Curve ℝ) (t : ℝ) : c.reversed.eval t = c.eval (1 - t) := by
  simp only [eval, reversed, Point.mk.injEq]
  constructor <;> ring

theorem trace_reversed (c : Curve ℝ) : c.reversed.trace (Icc 0 1) = c.trace (Icc 0 1) := by
  have hside (c : Curve ℝ) : c.reversed.trace (Icc 0 1) ⊆ c.trace (Icc 0 1) := by
    rw [trace_eq_image, trace_eq_image]
    rintro _ ⟨t, ht, rfl⟩
    rw [eval_reversed]
    exact ⟨1 - t, ⟨by linarith [ht.2], by linarith [ht.1]⟩, rfl⟩
  exact (hside c).antisymm (hside c.reversed)

theorem trace_leftToRight (c : Curve ℝ) : c.leftToRight.trace (Icc 0 1) = c.trace (Icc 0 1) := by
  by_cases h : c.finish.x < c.start.x
  · rw [leftToRight, if_pos h, trace_reversed]
  · rw [leftToRight, if_neg h]

theorem leftToRight_rises (c : Curve ℝ) : c.leftToRight.start.x ≤ c.leftToRight.finish.x := by
  by_cases h : c.finish.x < c.start.x
  · rw [leftToRight, if_pos h]
    exact h.le
  · rw [leftToRight, if_neg h]
    exact not_lt.mp h

theorem leftToRight_reversed (h : c.start.x ≠ c.finish.x) : c.reversed.leftToRight = c.leftToRight := by
  have hback : c.reversed.leftToRight = if c.start.x < c.finish.x then c else c.reversed := rfl
  rw [hback, leftToRight]
  rcases h.lt_or_gt with hlt | hgt
  · rw [if_pos hlt, if_neg hlt.not_gt]
  · rw [if_neg hgt.not_gt, if_pos hgt]

end Curve

/-! ## The curve of a caption -/

namespace Caption

variable {c : Curve ℝ} {off : ℝ}

/-- How far a caption's curve is moved, as a share of the bulge. -/
noncomputable def lift (c : Curve ℝ) (off : ℝ) : ℝ := off / Scalar.hypot c.bulging.x c.bulging.y

theorem depth_pos (h : c.IsBent) : 0 < Scalar.hypot c.bulging.x c.bulging.y := by
  apply Real.sqrt_pos.mpr
  rcases h.bulging_ne with hx | hy
  · exact add_pos_of_pos_of_nonneg (sq_pos_of_ne_zero hx) (sq_nonneg _)
  · exact add_pos_of_nonneg_of_pos (sq_nonneg _) (sq_pos_of_ne_zero hy)

theorem inward_exact (h : c.IsBent) :
    inward c c.bulging = .ok (c.bulging.scaled (-(Scalar.hypot c.bulging.x c.bulging.y)⁻¹)) := by
  have hdepth : Scalar.gt (Scalar.hypot c.bulging.x c.bulging.y) (0 : ℝ) = .ok true :=
    congrArg Except.ok (decide_eq_true (depth_pos h))
  unfold inward
  rw [Scalar.zero_literal]
  refine (bind_of_ok (a := Scalar.hypot c.bulging.x c.bulging.y) rfl _).trans ?_
  refine (bind_of_ok hdepth _).trans ?_
  change Except.ok (⟨-c.bulging.x / _, -c.bulging.y / _⟩ : Point ℝ) = _
  simp only [Point.scaled, div_eq_mul_inv, neg_mul, mul_neg]

theorem innerCurve_exact (h : c.IsBent) (off : ℝ) :
    innerCurve c off = .ok (c.flattened 0.6 (c.bulging.scaled (-lift c off))).leftToRight := by
  have hshift : (c.bulging.scaled (-(Scalar.hypot c.bulging.x c.bulging.y)⁻¹)).scaled off =
      c.bulging.scaled (-lift c off) := by
    simp only [Point.scaled, lift, Point.mk.injEq]
    constructor <;> ring
  unfold innerCurve
  refine (bind_of_ok (a := c.start.midpoint c.finish) rfl _).trans ?_
  refine (bind_of_ok (a := c.bulging) rfl _).trans ?_
  refine (bind_of_ok (inward_exact h) _).trans ?_
  refine (bind_of_ok (congrArg Except.ok hshift) _).trans ?_
  let inner := c.flattened 0.6 (c.bulging.scaled (-lift c off))
  change (if decide (inner.finish.x < inner.start.x) = true then Except.ok inner.reversed else .ok inner) =
    .ok inner.leftToRight
  rw [Curve.leftToRight]
  by_cases hback : inner.finish.x < inner.start.x
  · rw [if_pos (decide_eq_true hback), if_pos hback]
  · rw [if_neg (by simpa using hback), if_neg hback]

/-- The caption of a bent edge follows a curve that has no point in common with the edge and that runs from left
to right, in whichever direction the edge is drawn. -/
theorem captions_keep_off_their_edges (h : c.IsBent) (hoff : 0 < off) :
    ∃ inner, innerCurve c off = .ok inner ∧ Disjoint (c.trace (Icc 0 1)) (inner.trace (Icc 0 1)) ∧
      inner.start.x ≤ inner.finish.x ∧ (c.start.x ≠ c.finish.x → innerCurve c.reversed off = .ok inner) := by
  refine ⟨_, innerCurve_exact h off, ?_, Curve.leftToRight_rises _, ?_⟩
  · rw [Curve.trace_leftToRight, Curve.trace_eq_image, Curve.trace_eq_image, disjoint_left]
    rintro _ ⟨t, ht, rfl⟩ ⟨u, -, hu⟩
    have hlift : 0 < lift c off := div_pos hoff (depth_pos h)
    exact Curve.flattened_off h (by norm_num) hlift ht hu.symm
  · intro hdiffer
    have hlift : lift c.reversed off = lift c off := by rw [lift, lift, Curve.bulging_reversed]
    rw [innerCurve_exact h.reversed, Curve.flattened_reversed, Curve.bulging_reversed, hlift,
      Curve.leftToRight_reversed]
    exact fun heq => hdiffer (add_right_cancel heq)

/-- An edge drawn from right to left, and its caption. -/
theorem leftward_edge_keeps_its_caption_off :
    let c : Curve ℝ := ⟨⟨10, 0⟩, ⟨3, 5⟩, ⟨0, 0⟩⟩
    c.IsBent ∧ c.start.x ≠ c.finish.x ∧
      ∃ inner, innerCurve c 1 = .ok inner ∧ Disjoint (c.trace (Icc 0 1)) (inner.trace (Icc 0 1)) ∧
        inner.start.x ≤ inner.finish.x ∧ innerCurve c.reversed 1 = .ok inner := by
  intro c
  have hbent : c.IsBent := by norm_num [c, Curve.IsBent, Curve.chord, Curve.bulging, Point.midpoint_exact]
  have hdiffer : c.start.x ≠ c.finish.x := by norm_num [c]
  obtain ⟨inner, hinner, hoff, hrises, hback⟩ := captions_keep_off_their_edges hbent one_pos
  exact ⟨hbent, hdiffer, inner, hinner, hoff, hrises, hback hdiffer⟩

end Caption
end NodeLink
