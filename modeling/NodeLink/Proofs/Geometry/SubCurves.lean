import NodeLink.Geometry.Outline
import NodeLink.Proofs.Geometry.Clipping
import NodeLink.Proofs.Outcome

/-!
# Parts of curves

Over the reals a part of a curve runs through the points that the curve has between two parameters, and a part of
a part is a part of the whole. An edge is cut twice, where it meets the circles of its nodes and where its heads
begin; so the body that is drawn is still a part of the one curve from centre to centre.
-/

namespace NodeLink

open Set

namespace Curve

variable (c : Curve ℝ) (t₀ t₁ : ℝ)

/-- The points that a curve has at some parameters. -/
def trace (S : Set ℝ) : Set (Point ℝ) := {p | ∃ t ∈ S, c.point t = .ok p}

theorem trace_eq_image (S : Set ℝ) : c.trace S = c.eval '' S := by
  ext p
  constructor
  · rintro ⟨t, ht, hp⟩
    rw [point_exact] at hp
    cases hp
    exact ⟨t, ht, rfl⟩
  · rintro ⟨t, ht, rfl⟩
    exact ⟨t, ht, c.point_exact t⟩

/-- A part goes through its stretch of the curve at an even pace. -/
theorem point_part (s : ℝ) : (c.part t₀ t₁).point s = .ok (c.eval ((1 - s) * t₀ + s * t₁)) := by
  have hpace : t₀ + s * (t₁ - t₀) = (1 - s) * t₀ + s * t₁ := by ring
  rw [point_exact, eval_part, hpace]

theorem part_part (a b : ℝ) :
    (c.part t₀ t₁).part a b = c.part (t₀ + (t₁ - t₀) * a) (t₀ + (t₁ - t₀) * b) := by
  simp only [part, blend, eval, Curve.mk.injEq, Point.mk.injEq]
  refine ⟨⟨?_, ?_⟩, ⟨?_, ?_⟩, ?_, ?_⟩ <;> ring

theorem uIcc_eq_image : uIcc t₀ t₁ = (fun s => t₀ + (t₁ - t₀) * s) '' Icc 0 1 := by
  rw [← segment_eq_uIcc, segment_eq_image']
  simp only [smul_eq_mul, mul_comm]

theorem trace_part : (c.part t₀ t₁).trace (Icc 0 1) = c.trace (uIcc t₀ t₁) := by
  rw [trace_eq_image, trace_eq_image, uIcc_eq_image, image_image]
  refine image_congr fun s _ => ?_
  rw [eval_part, mul_comm]

end Curve

/-! ## Outlines over the reals -/

theorem Point.direction?_total (a b : Point ℝ) : ∃ direction, a.direction? b = .ok direction := by
  apply bind_succeeds ⟨_, rfl⟩
  intro length _
  apply bind_succeeds ⟨_, rfl⟩
  rintro (_ | _) -
  · exact ⟨_, rfl⟩
  · exact ⟨_, rfl⟩

theorem Head.fitted_total (thickness available : ℝ) : ∃ head, Head.fitted thickness available = .ok head := by
  apply bind_succeeds ⟨_, Scalar.greatest_exact _ _⟩
  intro long _
  apply bind_succeeds ⟨_, Scalar.least_exact _ _⟩
  intro length _
  apply bind_succeeds ⟨_, Scalar.greatest_exact _ _⟩
  intro wide _
  apply bind_succeeds ⟨_, Scalar.least_exact _ _⟩
  intro width _
  apply bind_succeeds ⟨_, rfl⟩
  rintro (_ | _) -
  · exact ⟨_, rfl⟩
  · apply bind_succeeds ⟨_, rfl⟩
    rintro (_ | _) -
    · exact ⟨_, rfl⟩
    · exact ⟨_, rfl⟩

namespace Outline

theorem settle_exact (o : Outline ℝ) : o.settle = .ok o := by
  have hcommand (c : PathCommand ℝ) : c.settle = .ok c := by cases c <;> rfl
  exact mapM_of_forall₂ (List.forall₂_same.mpr fun c _ => hcommand c)

theorem across_total (a b : Point ℝ) : ∃ side, across a b = .ok side := by
  apply bind_succeeds (a.direction?_total b)
  rintro (_ | u) -
  · exact ⟨_, rfl⟩
  · exact ⟨_, rfl⟩

theorem acrossMiddle_total (atStart atEnd : Point ℝ) : ∃ side, acrossMiddle atStart atEnd = .ok side := by
  apply bind_succeeds ⟨_, rfl⟩
  intro mean _
  apply bind_succeeds ⟨_, rfl⟩
  intro length _
  apply bind_succeeds ⟨_, rfl⟩
  rintro (_ | _) -
  · exact ⟨_, rfl⟩
  · exact ⟨_, rfl⟩

theorem ribbon_total (c : Curve ℝ) (thickness : ℝ) : ∃ band, ribbon c thickness = .ok band := by
  apply bind_succeeds ⟨_, rfl⟩
  intro half _
  apply bind_succeeds (across_total _ _)
  intro atStart _
  apply bind_succeeds (across_total _ _)
  intro atEnd _
  apply bind_succeeds (acrossMiddle_total _ _)
  intro atControl _
  exact ⟨_, settle_exact _⟩

theorem triangle_total (tip base : Point ℝ) (width : ℝ) : ∃ head, triangle tip base width = .ok head := by
  apply bind_succeeds (base.direction?_total tip)
  rintro (_ | u) -
  · exact ⟨_, rfl⟩
  · exact ⟨_, rfl⟩

theorem heads_total (start finish bodyStart bodyEnd : Point ℝ) (width : ℝ) (startArrow endArrow : Bool) :
    ∃ tips, heads start finish bodyStart bodyEnd width startArrow endArrow = .ok tips := by
  obtain ⟨first, hfirst⟩ := triangle_total start bodyStart width
  obtain ⟨second, hsecond⟩ := triangle_total finish bodyEnd width
  unfold heads
  rw [hfirst, hsecond]
  cases startArrow <;> cases endArrow <;> exact ⟨_, rfl⟩

theorem curvedArrow_exact (c : Curve ℝ) (thickness : ℝ) (startArrow endArrow : Bool) :
    ∃ a ∈ Icc (0 : ℝ) 1, ∃ b ∈ Icc (0 : ℝ) 1, ∃ band tips width, ribbon (c.part a b) thickness = .ok band ∧
      heads c.start c.finish (c.eval a) (c.eval b) width startArrow endArrow = .ok tips ∧
      curvedArrow c thickness startArrow endArrow = .ok (band ++ tips) := by
  obtain ⟨head, hhead⟩ := Head.fitted_total thickness (c.start.distance c.finish / headCount startArrow endArrow)
  obtain ⟨a, ha, hfirst⟩ : ∃ a ∈ Icc (0 : ℝ) 1,
      (if startArrow then c.crossing ⟨c.start, head.length⟩ { inside := .before } else pure 0.0) = .ok a := by
    cases startArrow with
    | true => exact c.crossing_lies _ _
    | false => exact ⟨0.0, by norm_num, rfl⟩
  obtain ⟨b, hb, hsecond⟩ : ∃ b ∈ Icc (0 : ℝ) 1,
      (if endArrow then c.crossing ⟨c.finish, head.length⟩ { inside := .after } else pure 1.0) = .ok b := by
    cases endArrow with
    | true => exact c.crossing_lies _ _
    | false => exact ⟨1.0, by norm_num, rfl⟩
  obtain ⟨band, hband⟩ := ribbon_total (c.part a b) thickness
  obtain ⟨tips, htips⟩ := heads_total c.start c.finish (c.eval a) (c.eval b) head.width startArrow endArrow
  refine ⟨a, ha, b, hb, band, tips, head.width, hband, htips, ?_⟩
  refine (bind_of_ok hhead _).trans ?_
  refine (branch_of_ok hfirst _).trans ?_
  refine (branch_of_ok hsecond _).trans ?_
  refine (bind_of_ok (c.between_exact a b) _).trans ?_
  refine (bind_of_ok hband _).trans ?_
  exact bind_of_ok htips _

end Outline

namespace Curve

theorem share_mem_uIcc (t₀ t₁ : ℝ) {s : ℝ} (hs : s ∈ Icc (0 : ℝ) 1) : t₀ + (t₁ - t₀) * s ∈ uIcc t₀ t₁ := by
  rw [uIcc_eq_image]
  exact mem_image_of_mem _ hs

/-- A curved edge between two circles that do not overlap is a part of the curve between their centres. -/
theorem clipped?_part {source target : Disc ℝ} (apart : source.centre.distance target.centre ≠ 0)
    (clear : source.radius + target.radius ≤ source.centre.distance target.centre) (curvature : ℝ) :
    ∃ t₀ ∈ Icc (0 : ℝ) 1, ∃ t₁ ∈ Icc (0 : ℝ) 1, Centreline.clipped? source target true curvature =
      .ok (some ((bow source.centre target.centre (bulge curvature)).part t₀ t₁).toCentreline) := by
  obtain ⟨t₀, ht₀, h₀⟩ := (bow source.centre target.centre (bulge curvature)).crossing_lies source .before
  obtain ⟨t₁, ht₁, h₁⟩ := (bow source.centre target.centre (bulge curvature)).crossing_lies target .after
  refine ⟨t₀, ht₀, t₁, ht₁, ?_⟩
  rw [Centreline.clipped?_exact apart clear, if_pos rfl, Centreline.bent_of_crossings apart h₀ h₁]
  rfl

theorem curvedArrow_part (whole : Curve ℝ) (t₀ t₁ thickness : ℝ) (startArrow endArrow : Bool) :
    ∃ u₀ ∈ uIcc t₀ t₁, ∃ u₁ ∈ uIcc t₀ t₁, ∃ band tips width,
      Outline.ribbon (whole.part u₀ u₁) thickness = .ok band ∧
        Outline.heads (whole.eval t₀) (whole.eval t₁) (whole.eval u₀) (whole.eval u₁) width startArrow endArrow =
          .ok tips ∧
        Outline.curvedArrow (whole.part t₀ t₁) thickness startArrow endArrow = .ok (band ++ tips) := by
  obtain ⟨a, ha, b, hb, band, tips, width, hband, htips, hrun⟩ :=
    Outline.curvedArrow_exact (whole.part t₀ t₁) thickness startArrow endArrow
  rw [part_part] at hband
  rw [eval_part, eval_part, mul_comm a, mul_comm b] at htips
  exact ⟨_, share_mem_uIcc t₀ t₁ ha, _, share_mem_uIcc t₀ t₁ hb, band, tips, width, hband, htips, hrun⟩

/-- A part of a curve has the points of the curve between its two parameters, at an even pace, and a part of a
part is a part of the curve. So the body of a curved edge, which is cut where the edge meets the circles of its
nodes and again where its heads begin, has the points that the curve from centre to centre has on a stretch of
what is left between the circles. -/
theorem parts_are_restrictions :
    (∀ (c : Curve ℝ) (t₀ t₁ s : ℝ), ∃ sub p, c.between t₀ t₁ = .ok sub ∧ sub.point s = .ok p ∧
      c.point ((1 - s) * t₀ + s * t₁) = .ok p) ∧
    (∀ (c : Curve ℝ) (t₀ t₁ a b : ℝ), (c.between t₀ t₁ >>= (·.between a b)) =
      c.between (t₀ + (t₁ - t₀) * a) (t₀ + (t₁ - t₀) * b)) ∧
    ∀ (source target : Disc ℝ) (curvature : ℝ), source.centre.distance target.centre ≠ 0 →
      source.radius + target.radius ≤ source.centre.distance target.centre →
        ∃ whole clip, ∃ t₀ ∈ Icc (0 : ℝ) 1, ∃ t₁ ∈ Icc (0 : ℝ) 1,
          Centreline.fullCurve source target curvature = .ok whole ∧ whole.between t₀ t₁ = .ok clip ∧
          Centreline.clipped? source target true curvature = .ok (some clip.toCentreline) ∧
          ∀ thickness startArrow endArrow, ∃ u₀ ∈ uIcc t₀ t₁, ∃ u₁ ∈ uIcc t₀ t₁, ∃ body band tips width,
            whole.between u₀ u₁ = .ok body ∧ body.trace (Icc 0 1) = whole.trace (uIcc u₀ u₁) ∧
            Outline.ribbon body thickness = .ok band ∧
            Outline.heads clip.start clip.finish body.start body.finish width startArrow endArrow = .ok tips ∧
            Outline.curvedArrow clip thickness startArrow endArrow = .ok (band ++ tips) := by
  refine ⟨?_, ?_, ?_⟩
  · intro c t₀ t₁ s
    exact ⟨_, _, c.between_exact t₀ t₁, c.point_part t₀ t₁ s, c.point_exact _⟩
  · intro c t₀ t₁ a b
    rw [bind_of_ok (c.between_exact t₀ t₁), between_exact, between_exact, part_part]
  · intro source target curvature apart clear
    let whole := bow source.centre target.centre (bulge curvature)
    obtain ⟨t₀, ht₀, t₁, ht₁, hclip⟩ := clipped?_part apart clear curvature
    refine ⟨whole, whole.part t₀ t₁, t₀, ht₀, t₁, ht₁, Centreline.fullCurve_exact apart curvature,
      whole.between_exact t₀ t₁, hclip, ?_⟩
    intro thickness startArrow endArrow
    obtain ⟨u₀, hu₀, u₁, hu₁, band, tips, width, hband, htips, hrun⟩ :=
      whole.curvedArrow_part t₀ t₁ thickness startArrow endArrow
    exact ⟨u₀, hu₀, u₁, hu₁, whole.part u₀ u₁, band, tips, width, whole.between_exact u₀ u₁,
      whole.trace_part u₀ u₁, hband, htips, hrun⟩

/-- The body of an edge with two heads between circles that touch. -/
theorem touching_circles_part :
    Point.distance (⟨0, 0⟩ : Point ℝ) ⟨3, 4⟩ ≠ 0 ∧
      ∃ whole clip body band tips, ∃ u₀ ∈ Icc (0 : ℝ) 1, ∃ u₁ ∈ Icc (0 : ℝ) 1,
        Centreline.fullCurve (⟨⟨0, 0⟩, 2⟩ : Disc ℝ) ⟨⟨3, 4⟩, 3⟩ 1 = .ok whole ∧
        Centreline.clipped? (⟨⟨0, 0⟩, 2⟩ : Disc ℝ) ⟨⟨3, 4⟩, 3⟩ true 1 = .ok (some (toCentreline clip)) ∧
        whole.between u₀ u₁ = .ok body ∧ Outline.ribbon body 2 = .ok band ∧
        Outline.curvedArrow clip 2 true true = .ok (band ++ tips) := by
  have hd : Point.distance (⟨0, 0⟩ : Point ℝ) ⟨3, 4⟩ = 5 := by
    rw [Point.distance_exact]
    norm_num
  have apart : Point.distance (⟨0, 0⟩ : Point ℝ) ⟨3, 4⟩ ≠ 0 := by
    rw [hd]
    norm_num
  obtain ⟨-, -, hdrawn⟩ := parts_are_restrictions
  obtain ⟨whole, clip, t₀, ht₀, t₁, ht₁, hwhole, -, hclip, hbody⟩ :=
    hdrawn ⟨⟨0, 0⟩, 2⟩ ⟨⟨3, 4⟩, 3⟩ 1 apart (by rw [hd]; norm_num)
  obtain ⟨u₀, hu₀, u₁, hu₁, body, band, tips, -, hpart, -, hband, -, hrun⟩ := hbody 2 true true
  have hunit : uIcc t₀ t₁ ⊆ Icc 0 1 := (convex_Icc 0 1).ordConnected.uIcc_subset ht₀ ht₁
  exact ⟨apart, whole, clip, body, band, tips, u₀, hunit hu₀, u₁, hunit hu₁, hwhole, hclip, hpart, hband, hrun⟩

end Curve
end NodeLink
