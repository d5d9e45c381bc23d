import NodeLink.Proofs.Geometry.Crossing

/-!
# Clipped centrelines

A straight centreline ends exactly on the circles of its two nodes. A curved one ends within a thousandth of
the distance of the nodes from them as long as its bulge is at most `√2` times that distance: then the
distance to either node only grows, or only shrinks, along the curve. More than 27 parallel edges are fanned
out further than that, and for 59 the search ends next to a sample that is close to the circle but not next
to the place where the curve leaves it.
-/

namespace NodeLink

open Set

namespace Curve

/-! ## The distance from the ends of a bow -/

/-- The square of the distance from the start of a bow over a chord of length 1. -/
def rise (h t : ℝ) : ℝ := t ^ 2 * (1 + 4 * h ^ 2 * (1 - t) ^ 2)

theorem rise_nonneg (h t : ℝ) : 0 ≤ rise h t := by
  unfold rise
  positivity

theorem le_sqrt_rise (h t : ℝ) : t ≤ √(rise h t) := by
  refine Real.le_sqrt_of_sq_le ?_
  unfold rise
  exact le_mul_of_one_le_right (sq_nonneg t) (by simp; positivity)

/-- How steeply a bow moves away from its start, up to a bulge of `√2`. -/
theorem rise_steep {h a b : ℝ} (flat : h ^ 2 ≤ 2) (ha : 0 ≤ a) (hab : a < b) (hb : b ≤ 1) :
    0 < a + b + 4 * h ^ 2 * (a * (1 - a) + b * (1 - b)) * (1 - (a + b)) := by
  have hspread : 0 ≤ a * (1 - a) + b * (1 - b) :=
    add_nonneg (mul_nonneg ha (by linarith)) (mul_nonneg (by linarith) (by linarith))
  rcases le_total (a + b) 1 with low | high
  · have : 0 ≤ 4 * h ^ 2 * (a * (1 - a) + b * (1 - b)) * (1 - (a + b)) :=
      mul_nonneg (mul_nonneg (by positivity) hspread) (by linarith)
    linarith
  · -- Beyond the middle the bow may come back; up to `√2` it does so by no more than it has moved away.
    have hback : 4 * h ^ 2 * (a * (1 - a) + b * (1 - b)) * (a + b - 1) ≤
        8 * (a * (1 - a) + b * (1 - b)) * (a + b - 1) := by
      have : 4 * h ^ 2 ≤ 8 := by linarith
      gcongr
    have hsquares : a + b - 8 * (a * (1 - a) + b * (1 - b)) * (a + b - 1) =
        (a + b) * (2 * (a + b) - 3) ^ 2 + 4 * (a + b - 1) * (b - a) ^ 2 := by ring
    have hpos : 0 < (a + b) * (2 * (a + b) - 3) ^ 2 + 4 * (a + b - 1) * (b - a) ^ 2 := by
      rcases high.eq_or_lt with one | above
      · rw [← one]
        norm_num
      · have : 0 < (b - a) ^ 2 := pow_pos (by linarith) 2
        have : 0 < 4 * (a + b - 1) * (b - a) ^ 2 := mul_pos (by linarith) this
        have : 0 ≤ (a + b) * (2 * (a + b) - 3) ^ 2 := mul_nonneg (by linarith) (sq_nonneg _)
        linarith
    linarith

theorem strictMonoOn_rise {h : ℝ} (flat : h ^ 2 ≤ 2) : StrictMonoOn (rise h) (Icc 0 1) := by
  rintro a ⟨ha, -⟩ b ⟨-, hb⟩ hab
  have hdiff : rise h b - rise h a =
      (b - a) * (a + b + 4 * h ^ 2 * (a * (1 - a) + b * (1 - b)) * (1 - (a + b))) := by
    unfold rise
    ring
  have := mul_pos (sub_pos.mpr hab) (rise_steep flat ha hab hb)
  linarith

variable (a b : Point ℝ) (h r t : ℝ)

theorem away_start : (bow a b h).away ⟨a, r⟩ t = a.distance b * √(rise h t) := by
  simp only [away, Point.distance_exact]
  rw [← Real.sqrt_mul (by positivity)]
  congr 1
  simp only [bow, eval, rise]
  ring

theorem away_finish : (bow a b h).away ⟨b, r⟩ t = a.distance b * √(rise h (1 - t)) := by
  simp only [away, Point.distance_exact]
  rw [← Real.sqrt_mul (by positivity)]
  congr 1
  simp only [bow, eval, rise]
  ring

theorem strictMonoOn_away_start {a b : Point ℝ} {h : ℝ} (apart : 0 < a.distance b) (flat : h ^ 2 ≤ 2)
    (r : ℝ) : StrictMonoOn ((bow a b h).away ⟨a, r⟩) (Icc 0 1) := by
  intro t ht u hu hlt
  rw [away_start, away_start]
  exact mul_lt_mul_of_pos_left
    (Real.sqrt_lt_sqrt (rise_nonneg h t) (strictMonoOn_rise flat ht hu hlt)) apart

theorem strictAntiOn_away_finish {a b : Point ℝ} {h : ℝ} (apart : 0 < a.distance b) (flat : h ^ 2 ≤ 2)
    (r : ℝ) : StrictAntiOn ((bow a b h).away ⟨b, r⟩) (Icc 0 1) := by
  intro t ht u hu hlt
  rw [away_finish, away_finish]
  refine mul_lt_mul_of_pos_left (Real.sqrt_lt_sqrt (rise_nonneg h _) ?_) apart
  have hback {v : ℝ} (hv : v ∈ Icc (0 : ℝ) 1) : 1 - v ∈ Icc (0 : ℝ) 1 := ⟨by linarith [hv.2], by linarith [hv.1]⟩
  exact strictMonoOn_rise flat (hback hu) (hback ht) (by linarith)

theorem distance_eval_le {a b : Point ℝ} {h : ℝ} (flat : h ^ 2 ≤ 2) {t u : ℝ} (ht : t ∈ Icc (0 : ℝ) 1)
    (hu : u ∈ Icc (0 : ℝ) 1) :
    ((bow a b h).eval t).distance ((bow a b h).eval u) ≤ 3 * a.distance b * |t - u| := by
  have hmean : (1 - (t + u)) ^ 2 ≤ 1 := by
    rw [sq_le_one_iff_abs_le_one, abs_le]
    constructor <;> linarith [ht.1, ht.2, hu.1, hu.2]
  have hroot : √(1 + 4 * h ^ 2 * (1 - (t + u)) ^ 2) ≤ 3 := by
    rw [Real.sqrt_le_left (by norm_num)]
    have : h ^ 2 * (1 - (t + u)) ^ 2 ≤ 2 * 1 := by gcongr
    linarith
  calc ((bow a b h).eval t).distance ((bow a b h).eval u)
      = a.distance b * |t - u| * √(1 + 4 * h ^ 2 * (1 - (t + u)) ^ 2) := by
        rw [← Real.sqrt_sq_eq_abs, Point.distance_exact, Point.distance_exact,
          ← Real.sqrt_mul (by positivity), ← Real.sqrt_mul (by positivity)]
        congr 1
        simp only [bow, eval]
        ring
    _ ≤ a.distance b * |t - u| * 3 := by
        gcongr
        exact mul_nonneg (Point.distance_nonneg a b) (abs_nonneg _)
    _ = 3 * a.distance b * |t - u| := by ring

/-! ## The crossings of a bow with the circles around its ends -/

theorem passes_start {a b : Point ℝ} {h r : ℝ} (apart : 0 < a.distance b) (flat : h ^ 2 ≤ 2)
    (hr : r ∈ Icc 0 (a.distance b)) : (bow a b h).Passes ⟨a, r⟩ .before := by
  refine .leaving (strictMonoOn_away_start apart flat r) ?_ ?_
  · rw [away_start]
    simpa [rise] using hr.1
  · rw [away_start]
    simpa [rise] using hr.2

theorem passes_finish {a b : Point ℝ} {h r : ℝ} (apart : 0 < a.distance b) (flat : h ^ 2 ≤ 2)
    (hr : r ∈ Icc 0 (a.distance b)) : (bow a b h).Passes ⟨b, r⟩ .after := by
  refine .entering (strictAntiOn_away_finish apart flat r) ?_ ?_
  · rw [away_finish]
    simpa [rise] using hr.2
  · rw [away_finish]
    simpa [rise] using hr.1

/-- With the samples and halvings of an edge, the search ends close to a circle that the bow crosses once. -/
theorem CrossesAt.crossing_off_le {a b : Point ℝ} {h : ℝ} (flat : h ^ 2 ≤ 2) {circle : Disc ℝ}
    {inside : Inside} {s : ℝ} (hs : (bow a b h).CrossesAt circle inside s)
    (hcross : (bow a b h).away circle s = circle.radius) :
    ∃ t ∈ Icc (0 : ℝ) 1, (bow a b h).crossing circle { inside := inside } = .ok t ∧
      (bow a b h).off circle t ≤ a.distance b / 1000 := by
  obtain ⟨t, ht, hrun, hnear⟩ :=
    hs.crossing_near { inside := inside } (n := 100) rfl (by norm_num) rfl
  refine ⟨t, ht, hrun, ?_⟩
  have hd := Point.distance_nonneg a b
  calc (bow a b h).off circle t
      = |(bow a b h).away circle t - (bow a b h).away circle s| := by rw [off, hcross]
    _ ≤ ((bow a b h).eval t).distance ((bow a b h).eval s) := Point.abs_distance_sub_le _ _ _
    _ ≤ 3 * a.distance b * |t - s| := distance_eval_le flat ht hs.mem
    _ ≤ 3 * a.distance b * (1 / (100 * 2 ^ 20)) := by gcongr; exact_mod_cast hnear
    _ ≤ a.distance b / 1000 := by linarith

end Curve

/-- A point is no further off a circle than the tolerance. -/
def Disc.Meets (circle : Disc ℝ) (tolerance : ℝ) (p : Point ℝ) : Prop :=
  |p.distance circle.centre - circle.radius| ≤ tolerance

namespace Centreline

open Curve

theorem bent_of_crossings {source target : Disc ℝ} {curvature t₀ t₁ : ℝ}
    (apart : source.centre.distance target.centre ≠ 0)
    (h₀ : (bow source.centre target.centre (bulge curvature)).crossing source { inside := .before } = .ok t₀)
    (h₁ : (bow source.centre target.centre (bulge curvature)).crossing target { inside := .after } = .ok t₁) :
    bent source target curvature =
      .ok ((bow source.centre target.centre (bulge curvature)).part t₀ t₁).toCentreline := by
  refine (bind_of_ok (fullCurve_exact apart curvature) _).trans ?_
  refine (bind_of_ok h₀ _).trans ?_
  refine (bind_of_ok h₁ _).trans ?_
  exact bind_of_ok (between_exact _ t₀ t₁) _

theorem clipped?_succeeds (source target : Disc ℝ) (curved : Bool) (curvature : ℝ) :
    ∃ line?, clipped? source target curved curvature = .ok line? := by
  by_cases h : source.centre.distance target.centre = 0 ∨
      source.centre.distance target.centre < source.radius + target.radius
  · exact ⟨none, clipped?_overlapping h curved curvature⟩
  · obtain ⟨apart, clear⟩ := not_or.mp h
    rw [clipped?_exact apart (not_lt.mp clear)]
    cases curved with
    | false => exact ⟨_, rfl⟩
    | true =>
      obtain ⟨t₀, -, h₀⟩ := (bow source.centre target.centre (bulge curvature)).crossing_lies source .before
      obtain ⟨t₁, -, h₁⟩ := (bow source.centre target.centre (bulge curvature)).crossing_lies target .after
      rw [if_pos rfl, bent_of_crossings apart h₀ h₁]
      exact ⟨_, rfl⟩

/-- Up to a bulge of `√2` a curved centreline is a part of the bow that ends close to both circles. -/
theorem bent_meets_circles {source target : Disc ℝ} (hs : 0 ≤ source.radius) (ht : 0 ≤ target.radius)
    (clear : source.radius + target.radius ≤ source.centre.distance target.centre)
    (apart : 0 < source.centre.distance target.centre) {curvature : ℝ} (flat : bulge curvature ^ 2 ≤ 2) :
    ∃ t₀ ∈ Icc (0 : ℝ) 1, ∃ t₁ ∈ Icc (0 : ℝ) 1,
      let line := (bow source.centre target.centre (bulge curvature)).part t₀ t₁
      bent source target curvature = .ok line.toCentreline ∧
        source.Meets (source.centre.distance target.centre / 1000) line.start ∧
        target.Meets (source.centre.distance target.centre / 1000) line.finish := by
  obtain ⟨s₀, hs₀, hcross₀⟩ := (passes_start apart flat ⟨hs, by linarith⟩).exists_crossesAt
  obtain ⟨s₁, hs₁, hcross₁⟩ := (passes_finish apart flat ⟨ht, by linarith⟩).exists_crossesAt
  obtain ⟨t₀, ht₀, hrun₀, hoff₀⟩ := hs₀.crossing_off_le flat hcross₀
  obtain ⟨t₁, ht₁, hrun₁, hoff₁⟩ := hs₁.crossing_off_le flat hcross₁
  exact ⟨t₀, ht₀, t₁, ht₁, bent_of_crossings apart.ne' hrun₀ hrun₁, hoff₀, hoff₁⟩

theorem sqrt_share {x y d r : ℝ} (hr : 0 ≤ r) (hd : 0 < d) (hxy : d = √(x ^ 2 + y ^ 2)) :
    √((x / d * r) ^ 2 + (y / d * r) ^ 2) = r := by
  have hsq : x ^ 2 + y ^ 2 = d ^ 2 := by rw [hxy, Real.sq_sqrt (by positivity)]
  have : (x / d * r) ^ 2 + (y / d * r) ^ 2 = r ^ 2 := by
    calc (x / d * r) ^ 2 + (y / d * r) ^ 2 = (x ^ 2 + y ^ 2) / d ^ 2 * r ^ 2 := by ring
      _ = r ^ 2 := by rw [hsq, div_self (by positivity), one_mul]
  rw [this, Real.sqrt_sq hr]

theorem chord_meets_circles {source target : Disc ℝ} (hs : 0 ≤ source.radius) (ht : 0 ≤ target.radius)
    (apart : 0 < source.centre.distance target.centre) :
    source.Meets 0 (chord source target (source.centre.distance target.centre)).start ∧
      target.Meets 0 (chord source target (source.centre.distance target.centre)).finish := by
  have hshare := fun r (hr : 0 ≤ r) => sqrt_share hr apart (Point.distance_exact source.centre target.centre)
  constructor
  · rw [Disc.Meets, Point.distance_comm, Point.distance_exact]
    simp only [chord, add_sub_cancel_left]
    rw [hshare _ hs, sub_self, abs_zero]
  · rw [Disc.Meets, Point.distance_exact]
    simp only [chord, sub_sub_cancel]
    rw [hshare _ ht, sub_self, abs_zero]

/-- How far off the circles a centreline may end. -/
noncomputable def tolerance (curved : Bool) (distance : ℝ) : ℝ := if curved then distance / 1000 else 0

/-- Of up to 27 parallel edges the widest one bulges by less than `√2` of its length. -/
theorem bulge_fanOut_sq_le {index count : ℕ} (hi : index < count) (few : count ≤ 27) :
    ∃ curvature, fanOut (index : ℝ) count = .ok curvature ∧ bulge curvature ^ 2 ≤ 2 := by
  refine ⟨_, fanOut_exact _ _, ?_⟩
  have hlow : (0 : ℝ) ≤ index := Nat.cast_nonneg index
  have hhigh : (index : ℝ) + 1 ≤ count := by exact_mod_cast hi
  have hcount : (count : ℝ) ≤ 27 := by exact_mod_cast few
  have hbulge : |bulge (if (count : ℝ) ≤ 1 then 0 else (index - (count - 1) / 2) * 0.8)| ≤ 1.4 := by
    rw [bulge, abs_le]
    split <;> constructor <;> norm_num <;> linarith
  calc bulge _ ^ 2 ≤ 1.4 ^ 2 := sq_le_sq' (abs_le.mp hbulge).1 (abs_le.mp hbulge).2
    _ ≤ 2 := by norm_num

/-- The centreline of an edge between two circles that do not overlap ends on both of them: a straight one
exactly, a curved one of up to 27 parallel edges within a thousandth of the distance of the centres. -/
theorem centrelines_end_on_circles (source target : Disc ℝ) (hs : 0 < source.radius) (ht : 0 < target.radius)
    (clear : source.radius + target.radius ≤ source.centre.distance target.centre) (curved : Bool)
    (index count : ℕ) (hi : index < count) (few : curved = true → count ≤ 27) :
    ∃ curvature line, fanOut (index : ℝ) count = .ok curvature ∧
      clipped? source target curved curvature = .ok (some line) ∧ line.curved = curved ∧
      source.Meets (tolerance curved (source.centre.distance target.centre)) line.start ∧
      target.Meets (tolerance curved (source.centre.distance target.centre)) line.finish := by
  have apart : 0 < source.centre.distance target.centre := by linarith
  cases curved with
  | false =>
    refine ⟨_, chord source target (source.centre.distance target.centre), fanOut_exact _ _, ?_, rfl,
      chord_meets_circles hs.le ht.le apart⟩
    rw [clipped?_exact apart.ne' clear, if_neg Bool.false_ne_true]
  | true =>
    obtain ⟨curvature, hfan, flat⟩ := bulge_fanOut_sq_le hi (few rfl)
    obtain ⟨t₀, -, t₁, -, hbent, hstart, hfinish⟩ := bent_meets_circles hs.le ht.le clear apart flat
    let line := (bow source.centre target.centre (bulge curvature)).part t₀ t₁
    refine ⟨curvature, line.toCentreline, hfan, ?_, rfl, hstart, hfinish⟩
    rw [clipped?_exact apart.ne' clear, if_pos rfl, hbent]
    rfl

/-- Two circles that touch, and a widely fanned out edge between them. -/
theorem touching_circles_are_met :
    ∃ curvature line, fanOut (26 : ℝ) 27 = .ok curvature ∧
      clipped? (⟨⟨0, 0⟩, 2⟩ : Disc ℝ) ⟨⟨3, 4⟩, 3⟩ true curvature = .ok (some line) ∧ line.curved = true ∧
      Disc.Meets ⟨⟨0, 0⟩, 2⟩ (5 / 1000) line.start ∧ Disc.Meets ⟨⟨3, 4⟩, 3⟩ (5 / 1000) line.finish := by
  have hd : Point.distance (⟨0, 0⟩ : Point ℝ) ⟨3, 4⟩ = 5 := by
    rw [Point.distance_exact]
    norm_num
  have h := centrelines_end_on_circles ⟨⟨0, 0⟩, 2⟩ ⟨⟨3, 4⟩, 3⟩ (by norm_num) (by norm_num)
    (by rw [hd]; norm_num) true 26 27 (by norm_num) (fun _ => le_rfl)
  rw [hd] at h
  exact_mod_cast h

/-! ## A fan that is too wide -/

/-- The square of the distance of sample `j` from the start of the outermost of 59 edges, in parts of the
squared chord. -/
def widestRise (j : ℕ) : ℕ := j ^ 2 * (10000000000 + 33732864 * (100 - j) ^ 2)

theorem rise_sample {j : ℕ} (hj : j ≤ 100) : rise 2.904 (sample 100 j) = widestRise j / 10 ^ 14 := by
  unfold rise widestRise sample
  push_cast [Nat.cast_sub hj]
  ring

/-- No other sample than 97 is between 0.955 and 0.985 chords away from the start. -/
theorem widestRise_far :
    ∀ j ≤ 100, j ≠ 97 → widestRise j ≤ 91202500000000 ∨ 97022500000000 ≤ widestRise j := by
  decide +kernel

/-- The circles of two nodes that touch, a large one and a small one. -/
def large : Disc ℝ := ⟨⟨0, 0⟩, 97⟩
def small : Disc ℝ := ⟨⟨100, 0⟩, 3⟩

theorem large_distance_small : large.centre.distance small.centre = 100 := by
  rw [Point.distance_exact, large, small]
  norm_num

/-- The outermost of 59 edges between them. -/
noncomputable def widest : Curve ℝ := bow large.centre small.centre 2.904

theorem off_widest (t : ℝ) : widest.off large t = |100 * √(rise 2.904 t) - 97| := by
  have haway : widest.away large t = large.centre.distance small.centre * √(rise 2.904 t) := away_start ..
  rw [off, haway, large_distance_small, large]

theorem off_widest_sample_ge {j : ℕ} (hj : j ≤ 100) (hne : j ≠ 97) :
    1.5 ≤ widest.off large (sample 100 j) := by
  rw [off_widest, rise_sample hj, le_abs]
  rcases widestRise_far j hj hne with near | far
  · right
    have : √((widestRise j : ℝ) / 10 ^ 14) ≤ 0.955 := by
      rw [Real.sqrt_le_left (by norm_num), div_le_iff₀ (by norm_num)]
      exact le_trans (by exact_mod_cast near) (by norm_num : (91202500000000 : ℝ) ≤ _)
    linarith
  · left
    have : 0.985 ≤ √((widestRise j : ℝ) / 10 ^ 14) := by
      rw [Real.le_sqrt' (by norm_num), le_div_iff₀ (by norm_num)]
      exact le_trans (by norm_num : _ ≤ (97022500000000 : ℝ)) (by exact_mod_cast far)
    linarith

theorem off_widest_sample_97 : widest.off large (sample 100 97) < 1.5 := by
  have hrise : (widestRise 97 : ℝ) / 10 ^ 14 = 0.96946532656384 := by
    rw [show widestRise 97 = 96946532656384 from rfl]
    norm_num
  have hlow : 0.97 ≤ √(0.96946532656384 : ℝ) := Real.le_sqrt_of_sq_le (by norm_num)
  have hhigh : √(0.96946532656384 : ℝ) ≤ 0.9847 := by
    rw [Real.sqrt_le_left (by norm_num)]
    norm_num
  rw [off_widest, rise_sample (by norm_num), hrise, abs_lt]
  constructor <;> linarith

/-- Next to sample 97 the curve is outside the circle. -/
theorem off_widest_gt {t : ℝ} (ht : |t - sample 100 97| ≤ 1 / 100) : 1 < widest.off large t := by
  have hsample : sample 100 97 = 0.97 := by
    rw [sample]
    norm_num
  rw [hsample, abs_le] at ht
  have hbend : (1 - t) ^ 2 * 31 ≤ t ^ 2 * (33.732864 * (1 - t) ^ 2) := by nlinarith [sq_nonneg (1 - t)]
  have hrise : 0.9606 ≤ rise 2.904 t := by
    calc (0.9606 : ℝ) ≤ t ^ 2 + (1 - t) ^ 2 * 31 := by nlinarith [sq_nonneg (32 * t - 31)]
      _ ≤ t ^ 2 + t ^ 2 * (33.732864 * (1 - t) ^ 2) := by linarith
      _ = rise 2.904 t := by
        unfold rise
        ring
  have hroot : 0.9801 ≤ √(rise 2.904 t) := Real.le_sqrt_of_sq_le (le_trans (by norm_num) hrise)
  rw [off_widest]
  exact lt_of_lt_of_le (by linarith) (le_abs_self _)

/-- The outermost of 59 edges starts next to sample 97, although it leaves the circle long before. -/
theorem widest_edge_misses_its_circle :
    ∃ curvature line, fanOut (58 : ℝ) 59 = .ok curvature ∧
      clipped? large small true curvature = .ok (some line) ∧ line.curved = true ∧
      ¬ large.Meets (tolerance true (large.centre.distance small.centre)) line.start := by
  obtain ⟨i, hi, hleast, t₀, -, hnear, hrun₀⟩ :=
    widest.crossing_near_sample large { inside := .before } (n := 100) rfl rfl
  obtain ⟨t₁, -, hrun₁⟩ := widest.crossing_lies small .after
  have hbest : i = 97 := by
    by_contra hne
    exact ((off_widest_sample_ge hi hne).trans (hleast 97 (by norm_num))).not_gt off_widest_sample_97
  subst hbest
  have hd := large_distance_small
  have hbow : bow large.centre small.centre (bulge 23.2) = widest := by
    rw [widest]
    congr 1
    norm_num [bulge]
  have hbent : bent large small 23.2 = .ok (widest.part t₀ t₁).toCentreline := by
    rw [← hbow] at hrun₀ hrun₁ ⊢
    exact bent_of_crossings (by rw [hd]; norm_num) hrun₀ hrun₁
  refine ⟨23.2, (widest.part t₀ t₁).toCentreline, ?_, ?_, rfl, ?_⟩
  · rw [fanOut_exact]
    norm_num
  · rw [clipped?_exact (by rw [hd]; norm_num) (by rw [hd, large, small]; norm_num), if_pos rfl, hbent]
    rfl
  · have hfar : 1 < |(widest.eval t₀).distance large.centre - large.radius| :=
      off_widest_gt (by exact_mod_cast hnear)
    rw [Disc.Meets, hd, tolerance, if_pos rfl, not_le]
    exact lt_trans (by norm_num) hfar

end Centreline
end NodeLink
