import NodeLink.Proofs.Geometry.Clipping

/-!
# Single crossings

Where a curve only moves away from the centre of a circle, or only comes closer, it crosses the circle once, and
the search ends next to that crossing. A bow of up to `√2` times its chord does so at both of its ends, and it
has left the circle around its start before it enters the one around its end.
-/

namespace NodeLink
namespace Curve

open Set

theorem Passes.search_near {c : Curve ℝ} {circle : Disc ℝ} {search : Search} {iterations : ℤ}
    (h : c.Passes circle search.inside) (hsamples : 1 ≤ search.samples)
    (hhalvings : search.halvings = .ok iterations) :
    ∃ s ∈ Icc (0 : ℝ) 1, c.away circle s = circle.radius ∧
      (∀ u ∈ Icc (0 : ℝ) 1, c.away circle u = circle.radius → u = s) ∧
      ∃ t ∈ Icc (0 : ℝ) 1, c.crossing circle search = .ok t ∧
        |t - s| ≤ 1 / (search.samples * 2 ^ iterations.toNat) := by
  obtain ⟨s, hs, cross⟩ := h.exists_crossesAt
  obtain ⟨n, hn⟩ := Int.eq_ofNat_of_zero_le (zero_le_one.trans hsamples)
  have hpos : 0 < n := by omega
  obtain ⟨t, ht, hrun, hnear⟩ := hs.crossing_near search hn hpos hhalvings
  refine ⟨s, hs.mem, cross, ?_, t, ht, hrun, ?_⟩
  · intro u hu hcross
    exact h.injOn hu hs.mem (hcross.trans cross.symm)
  · rw [hn, Int.cast_natCast]
    exact hnear

/-- A bow leaves the circle around its start before it enters the one around its end. -/
theorem crossings_in_order {a b : Point ℝ} {h r r' s t : ℝ} (apart : 0 < a.distance b) (flat : h ^ 2 ≤ 2)
    (clear : r + r' ≤ a.distance b) (hs : s ∈ Icc (0 : ℝ) 1) (ht : t ∈ Icc (0 : ℝ) 1)
    (leaves : (bow a b h).away ⟨a, r⟩ s = r) (enters : (bow a b h).away ⟨b, r'⟩ t = r') : s ≤ t := by
  by_contra hlt
  -- Entered first, the circles would overlap.
  have hnear : (bow a b h).away ⟨a, r⟩ t < r := leaves ▸ strictMonoOn_away_start apart flat r ht hs (not_le.mp hlt)
  have htriangle : a.distance b ≤ (bow a b h).away ⟨a, r⟩ t + (bow a b h).away ⟨b, r'⟩ t := by
    simp only [away, Point.distance_eq_dist]
    exact dist_triangle_left _ _ _
  linarith

theorem bulge_sq_le {curvature : ℝ} (h : |1 + curvature| ≤ 11) : bulge curvature ^ 2 ≤ 2 := by
  have hbulge : |bulge curvature| ≤ 1.4 := by
    rw [abs_le] at h ⊢
    unfold bulge
    constructor <;> linarith
  calc bulge curvature ^ 2 ≤ 1.4 ^ 2 := sq_le_sq' (abs_le.mp hbulge).1 (abs_le.mp hbulge).2
    _ ≤ 2 := by norm_num

/-- The search for a crossing ends as close to it as its samples and halvings promise, wherever the distance of
a curve from the centre of a circle is strictly monotone and passes the radius. Between circles that do not
overlap, the curve from centre to centre passes both that way, and leaves the first one before it enters the
second, as long as it is bent by at most eleven times the base curvature. -/
theorem search_finds_single_crossings :
    (∀ (c : Curve ℝ) (circle : Disc ℝ) (search : Search) (iterations : ℤ), 1 ≤ search.samples →
      search.halvings = .ok iterations → c.Passes circle search.inside →
        ∃ s ∈ Icc (0 : ℝ) 1, c.away circle s = circle.radius ∧
          (∀ u ∈ Icc (0 : ℝ) 1, c.away circle u = circle.radius → u = s) ∧
          ∃ t ∈ Icc (0 : ℝ) 1, c.crossing circle search = .ok t ∧
            |t - s| ≤ 1 / (search.samples * 2 ^ iterations.toNat)) ∧
      ∀ (source target : Disc ℝ) (curvature : ℝ), 0 < source.radius → 0 < target.radius →
        source.radius + target.radius ≤ source.centre.distance target.centre → |1 + curvature| ≤ 11 →
          ∃ c, Centreline.fullCurve source target curvature = .ok c ∧
            c.Passes source .before ∧ c.Passes target .after ∧
            ∀ s ∈ Icc (0 : ℝ) 1, ∀ t ∈ Icc (0 : ℝ) 1, c.away source s = source.radius →
              c.away target t = target.radius → s ≤ t := by
  constructor
  · intro c circle search iterations hsamples hhalvings hpasses
    exact hpasses.search_near hsamples hhalvings
  · intro source target curvature hs ht clear hcurvature
    have apart : 0 < source.centre.distance target.centre := by linarith
    have flat := bulge_sq_le hcurvature
    refine ⟨_, Centreline.fullCurve_exact apart.ne' curvature, ?_, ?_, ?_⟩
    · exact passes_start apart flat ⟨hs.le, by linarith⟩
    · exact passes_finish apart flat ⟨ht.le, by linarith⟩
    · intro s hs t ht leaves enters
      exact crossings_in_order apart flat clear hs ht leaves enters

/-- A wide bow between two circles that touch, searched with seven samples and three halvings. -/
theorem wide_bow_crosses_near :
    ∃ c s t, Centreline.fullCurve (⟨⟨0, 0⟩, 2⟩ : Disc ℝ) ⟨⟨3, 4⟩, 3⟩ 10 = .ok c ∧
      c.away ⟨⟨0, 0⟩, 2⟩ s = 2 ∧
      c.crossing ⟨⟨0, 0⟩, 2⟩ { inside := .before, samples := 7, halvings := .ok 3 } = .ok t ∧
      |t - s| ≤ 1 / 56 := by
  have hd : Point.distance (⟨0, 0⟩ : Point ℝ) ⟨3, 4⟩ = 5 := by
    rw [Point.distance_exact]
    norm_num
  obtain ⟨hsearch, hpasses⟩ := search_finds_single_crossings
  obtain ⟨c, hc, hleaves, -, -⟩ := hpasses ⟨⟨0, 0⟩, 2⟩ ⟨⟨3, 4⟩, 3⟩ 10 (by norm_num) (by norm_num)
    (by rw [hd]; norm_num) (by norm_num)
  obtain ⟨s, -, hs, -, t, -, ht, hnear⟩ := hsearch c ⟨⟨0, 0⟩, 2⟩
    { inside := .before, samples := 7, halvings := .ok 3 } 3 (by decide) rfl hleaves
  refine ⟨c, s, t, hc, hs, ht, hnear.trans_eq ?_⟩
  rw [show Int.toNat 3 = 3 from rfl]
  norm_num

end Curve
end NodeLink
