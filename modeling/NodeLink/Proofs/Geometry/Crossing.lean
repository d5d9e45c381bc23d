import NodeLink.Proofs.Geometry.Exact

/-!
# Where a curve crosses a circle

The search for a crossing takes the sample closest to the circle and halves the stretch of one step to both
sides of it. Where the distance to the centre only grows, or only shrinks, along the curve, that sample is
next to the crossing, every halving keeps the crossing in the stretch, and the search ends as close to it as
the number of samples and halvings promises.
-/

namespace NodeLink
namespace Curve

open Set

variable {c : Curve ℝ} {circle : Disc ℝ}

/-- How far the point at a parameter is from the centre of a circle. -/
noncomputable def away (c : Curve ℝ) (circle : Disc ℝ) (t : ℝ) : ℝ := (c.eval t).distance circle.centre

/-- How far the point at a parameter is off a circle. -/
noncomputable def off (c : Curve ℝ) (circle : Disc ℝ) (t : ℝ) : ℝ := |c.away circle t - circle.radius|

/-- Whether the search goes on to the right of a parameter. -/
noncomputable def goesOn (c : Curve ℝ) (circle : Disc ℝ) (inside : Inside) (t : ℝ) : Bool :=
  inside.isFurther (decide (c.away circle t < circle.radius))

theorem gap_exact (c : Curve ℝ) (circle : Disc ℝ) (t : ℝ) : c.gap circle t = .ok (c.off circle t) := by
  unfold gap
  rw [point_exact]
  rfl

theorem continuous_away (c : Curve ℝ) (circle : Disc ℝ) : Continuous (c.away circle) := by
  unfold away eval
  simp only [Point.distance_exact]
  fun_prop

/-! ## Samples -/

/-- Sample `i` of `n + 1`. -/
noncomputable def sample (n i : ℕ) : ℝ := i / n

theorem sample_mem {n i : ℕ} (hi : i ≤ n) : sample n i ∈ Icc (0 : ℝ) 1 :=
  ⟨by unfold sample; positivity, div_le_one_of_le₀ (by exact_mod_cast hi) (by positivity)⟩

theorem sample_succ (n i : ℕ) : sample n (i + 1) = sample n i + 1 / n := by
  unfold sample
  push_cast
  ring

theorem sample_lt_succ {n : ℕ} (hn : 0 < n) (i : ℕ) : sample n i < sample n (i + 1) := by
  rw [sample_succ]
  exact lt_add_of_pos_right _ (by positivity)

theorem betterSample_first (c : Curve ℝ) (circle : Disc ℝ) (t : ℝ) :
    c.betterSample circle none t = .ok (some (c.off circle t, t)) := by
  unfold betterSample
  rw [gap_exact]
  rfl

theorem betterSample_next (c : Curve ℝ) (circle : Disc ℝ) (s t : ℝ) :
    c.betterSample circle (some (c.off circle s, s)) t =
      .ok (if c.off circle t < c.off circle s then some (c.off circle t, t)
        else some (c.off circle s, s)) := by
  unfold betterSample
  rw [gap_exact]
  change Except.ok (if decide (c.off circle t < c.off circle s) = true then some (c.off circle t, t)
    else some (c.off circle s, s)) = _
  simp only [decide_eq_true_eq]

/-- One step of the search for the closest of `n + 1` samples. -/
noncomputable def keepCloser (c : Curve ℝ) (circle : Disc ℝ) (n : ℕ) (best : Option (ℝ × ℝ)) (i : ℕ) :
    Except Fault (Option (ℝ × ℝ)) :=
  c.betterSample circle best (sample n i)

theorem foldlM_keepCloser (c : Curve ℝ) (circle : Disc ℝ) (n k : ℕ) :
    ∃ i ≤ k, (List.range (k + 1)).foldlM (c.keepCloser circle n) none =
        .ok (some (c.off circle (sample n i), sample n i)) ∧
      ∀ j ≤ k, c.off circle (sample n i) ≤ c.off circle (sample n j) := by
  induction k with
  | zero =>
    refine ⟨0, le_rfl, ?_, fun j hj => by rw [Nat.le_zero.mp hj]⟩
    change (c.keepCloser circle n none 0 >>= pure) = _
    rw [bind_pure, keepCloser, betterSample_first]
  | succ k ih =>
    obtain ⟨i, hi, hrun, hleast⟩ := ih
    rw [List.range_succ, List.foldlM_append, hrun]
    change ∃ i' ≤ k + 1, (c.keepCloser circle n (some (c.off circle (sample n i), sample n i)) (k + 1) >>=
      pure) = .ok (some (c.off circle (sample n i'), sample n i')) ∧ _
    rw [bind_pure, keepCloser, betterSample_next]
    by_cases closer : c.off circle (sample n (k + 1)) < c.off circle (sample n i)
    · refine ⟨k + 1, le_rfl, by rw [if_pos closer], fun j hj => ?_⟩
      rcases Nat.le_succ_iff.mp hj with hj | rfl
      · exact closer.le.trans (hleast j hj)
      · exact le_rfl
    · refine ⟨i, hi.trans (Nat.le_succ k), by rw [if_neg closer], fun j hj => ?_⟩
      rcases Nat.le_succ_iff.mp hj with hj | rfl
      · exact hleast j hj
      · exact not_lt.mp closer

/-- The search starts from a sample that no other one is closer to the circle than. -/
theorem bestSample_exact (c : Curve ℝ) (circle : Disc ℝ) {search : Search} {n : ℕ}
    (hn : search.samples = n) :
    ∃ i ≤ n, c.bestSample circle search = .ok (sample n i) ∧
      ∀ j ≤ n, c.off circle (sample n i) ≤ c.off circle (sample n j) := by
  obtain ⟨i, hi, hrun, hleast⟩ := foldlM_keepCloser c circle n n
  refine ⟨i, hi, ?_, hleast⟩
  unfold bestSample
  rw [hn, Scalar.ofInt_exact, Int.cast_natCast]
  exact bind_of_ok hrun _

/-! ## Halving -/

theorem halve_succ (c : Curve ℝ) (circle : Disc ℝ) (inside : Inside) (k : ℕ) (lo hi : ℝ) :
    c.halve circle inside (k + 1) lo hi =
      if c.goesOn circle inside ((lo + hi) / 2) then c.halve circle inside k ((lo + hi) / 2) hi
      else c.halve circle inside k lo ((lo + hi) / 2) := by
  rw [halve]
  simp only [point_exact]
  rfl

theorem halve_ends (c : Curve ℝ) (circle : Disc ℝ) (inside : Inside) (k : ℕ) {lo hi : ℝ} (h : lo ≤ hi) :
    ∃ t ∈ Icc lo hi, c.halve circle inside k lo hi = .ok t := by
  induction k generalizing lo hi with
  | zero => exact ⟨(lo + hi) / 2, ⟨by linarith, by linarith⟩, rfl⟩
  | succ k ih =>
    rw [halve_succ]
    split
    · have hmid : (lo + hi) / 2 ≤ hi := by linarith
      obtain ⟨t, ht, hrun⟩ := ih hmid
      exact ⟨t, ⟨by linarith [ht.1], ht.2⟩, hrun⟩
    · have hmid : lo ≤ (lo + hi) / 2 := by linarith
      obtain ⟨t, ht, hrun⟩ := ih hmid
      exact ⟨t, ⟨ht.1, by linarith [ht.2]⟩, hrun⟩

/-! ## One crossing -/

/-- A curve crosses a circle once, at `s`, on the side that the search expects, and is further off the
circle the further it is from there. -/
structure CrossesAt (c : Curve ℝ) (circle : Disc ℝ) (inside : Inside) (s : ℝ) : Prop where
  mem : s ∈ Icc (0 : ℝ) 1
  before : ∀ t ∈ Icc (0 : ℝ) 1, t < s → c.goesOn circle inside t = true
  after : ∀ t ∈ Icc (0 : ℝ) 1, s < t → c.goesOn circle inside t = false
  nears : StrictAntiOn (c.off circle) (Icc 0 s)
  leaves : StrictMonoOn (c.off circle) (Icc s 1)

theorem crossesAt_of_strictMonoOn (mono : StrictMonoOn (c.away circle) (Icc 0 1)) {s : ℝ}
    (hs : s ∈ Icc (0 : ℝ) 1) (cross : c.away circle s = circle.radius) : c.CrossesAt circle .before s where
  mem := hs
  before t ht hlt := decide_eq_true (cross ▸ mono ht hs hlt)
  after t ht hlt := decide_eq_false (not_lt.mpr (cross ▸ (mono hs ht hlt).le))
  nears t ht u hu hlt := by
    have htu := mono ⟨ht.1, ht.2.trans hs.2⟩ ⟨hu.1, hu.2.trans hs.2⟩ hlt
    have hus := mono.monotoneOn ⟨hu.1, hu.2.trans hs.2⟩ hs hu.2
    unfold off
    rw [abs_of_nonpos (by linarith), abs_of_nonpos (by linarith)]
    linarith
  leaves t ht u hu hlt := by
    have htu := mono ⟨hs.1.trans ht.1, ht.2⟩ ⟨hs.1.trans hu.1, hu.2⟩ hlt
    have hst := mono.monotoneOn hs ⟨hs.1.trans ht.1, ht.2⟩ ht.1
    unfold off
    rw [abs_of_nonneg (by linarith), abs_of_nonneg (by linarith)]
    linarith

theorem crossesAt_of_strictAntiOn (anti : StrictAntiOn (c.away circle) (Icc 0 1)) {s : ℝ}
    (hs : s ∈ Icc (0 : ℝ) 1) (cross : c.away circle s = circle.radius) : c.CrossesAt circle .after s where
  mem := hs
  before t ht hlt := by
    have := anti ht hs hlt
    simp only [goesOn, Inside.isFurther, Bool.not_eq_true', decide_eq_false_iff_not, not_lt]
    linarith
  after t ht hlt := by
    have := anti hs ht hlt
    simp only [goesOn, Inside.isFurther, Bool.not_eq_false', decide_eq_true_eq]
    linarith
  nears t ht u hu hlt := by
    have htu := anti ⟨ht.1, ht.2.trans hs.2⟩ ⟨hu.1, hu.2.trans hs.2⟩ hlt
    have hus := anti.antitoneOn ⟨hu.1, hu.2.trans hs.2⟩ hs hu.2
    unfold off
    rw [abs_of_nonneg (by linarith), abs_of_nonneg (by linarith)]
    linarith
  leaves t ht u hu hlt := by
    have htu := anti ⟨hs.1.trans ht.1, ht.2⟩ ⟨hs.1.trans hu.1, hu.2⟩ hlt
    have hst := anti.antitoneOn hs ⟨hs.1.trans ht.1, ht.2⟩ ht.1
    unfold off
    rw [abs_of_nonpos (by linarith), abs_of_nonpos (by linarith)]
    linarith

/-- The distance of a curve from the centre of a circle only grows, or only shrinks, and passes the radius on
the way, in the direction that the search expects. -/
inductive Passes (c : Curve ℝ) (circle : Disc ℝ) : Inside → Prop where
  | leaving (grows : StrictMonoOn (c.away circle) (Icc 0 1)) (start : c.away circle 0 ≤ circle.radius)
      (finish : circle.radius ≤ c.away circle 1) : Passes c circle .before
  | entering (shrinks : StrictAntiOn (c.away circle) (Icc 0 1)) (start : circle.radius ≤ c.away circle 0)
      (finish : c.away circle 1 ≤ circle.radius) : Passes c circle .after

theorem Passes.exists_crossesAt {inside : Inside} (h : c.Passes circle inside) :
    ∃ s, c.CrossesAt circle inside s ∧ c.away circle s = circle.radius := by
  have hcontinuous := (c.continuous_away circle).continuousOn (s := Icc 0 1)
  cases h with
  | leaving grows start finish =>
    obtain ⟨s, hs, cross⟩ := intermediate_value_Icc zero_le_one hcontinuous ⟨start, finish⟩
    exact ⟨s, crossesAt_of_strictMonoOn grows hs cross, cross⟩
  | entering shrinks start finish =>
    obtain ⟨s, hs, cross⟩ := intermediate_value_Icc' zero_le_one hcontinuous ⟨finish, start⟩
    exact ⟨s, crossesAt_of_strictAntiOn shrinks hs cross, cross⟩

theorem Passes.injOn {inside : Inside} (h : c.Passes circle inside) : InjOn (c.away circle) (Icc 0 1) := by
  cases h with
  | leaving grows _ _ => exact grows.injOn
  | entering shrinks _ _ => exact shrinks.injOn

theorem CrossesAt.near_sample {inside : Inside} {s : ℝ} (h : c.CrossesAt circle inside s) {n i : ℕ}
    (hn : 0 < n) (hi : i ≤ n) (least : ∀ j ≤ n, c.off circle (sample n i) ≤ c.off circle (sample n j)) :
    |sample n i - s| ≤ 1 / n := by
  -- Otherwise the next sample towards the crossing would be closer to the circle.
  rw [abs_le]
  constructor
  · by_contra hfar
    have hlt : sample n (i + 1) < s := by linarith [sample_succ n i]
    have hin : i + 1 ≤ n := by
      have : sample n (i + 1) < 1 := hlt.trans_le h.mem.2
      rw [sample, div_lt_one (by exact_mod_cast hn)] at this
      exact_mod_cast this.le
    have hnext := sample_lt_succ hn i
    exact (h.nears ⟨(sample_mem hi).1, (hnext.trans hlt).le⟩ ⟨(sample_mem hin).1, hlt.le⟩ hnext).not_ge
      (least (i + 1) hin)
  · by_contra hfar
    obtain _ | i := i
    · have hs := h.mem.1
      have hstep : (0 : ℝ) ≤ 1 / n := by positivity
      simp only [sample, Nat.cast_zero, zero_div] at hfar
      linarith
    · have hlt : s < sample n i := by linarith [sample_succ n i]
      have hin : i ≤ n := (Nat.le_succ i).trans hi
      have hnext := sample_lt_succ hn i
      exact (h.leaves ⟨hlt.le, (sample_mem hin).2⟩ ⟨(hlt.trans hnext).le, (sample_mem hi).2⟩ hnext).not_ge
        (least i hin)

/-- Halving a stretch around the crossing comes as close to it as the number of halvings promises. -/
theorem CrossesAt.halve_near {inside : Inside} {s : ℝ} (h : c.CrossesAt circle inside s) {k : ℕ}
    {lo hi t : ℝ} (hlo : 0 ≤ lo) (hhi : hi ≤ 1) (hs : s ∈ Icc lo hi)
    (hrun : c.halve circle inside k lo hi = .ok t) : |t - s| ≤ (hi - lo) / 2 ^ (k + 1) := by
  induction k generalizing lo hi with
  | zero =>
    cases hrun
    obtain ⟨h₁, h₂⟩ := hs
    rw [abs_le]
    constructor <;> linarith
  | succ k ih =>
    -- The half that is kept is the one with the crossing, since the search goes on to the right before it only.
    rw [halve_succ] at hrun
    have hmid : (lo + hi) / 2 ∈ Icc (0 : ℝ) 1 := ⟨by linarith [hs.1, hs.2], by linarith [hs.1, hs.2]⟩
    have hpow : (hi - (lo + hi) / 2) / 2 ^ (k + 1) = (hi - lo) / 2 ^ (k + 1 + 1) := by
      field_simp
      ring
    split at hrun
    case isTrue further =>
      have hms : (lo + hi) / 2 ≤ s := by
        by_contra hlt
        rw [h.after _ hmid (not_le.mp hlt)] at further
        cases further
      exact (ih hmid.1 hhi ⟨hms, hs.2⟩ hrun).trans_eq hpow
    case isFalse further =>
      have hms : s ≤ (lo + hi) / 2 := by
        by_contra hlt
        exact further (h.before _ hmid (not_le.mp hlt))
      refine (ih hlo hmid.2 ⟨hs.1, hms⟩ hrun).trans_eq ?_
      rw [← hpow]
      ring

/-! ## The search -/

/-- The search halves the stretch of one step to both sides of the closest sample. -/
theorem crossing_exact (c : Curve ℝ) (circle : Disc ℝ) {search : Search} {n : ℕ} {k : ℤ}
    (hn : search.samples = n) (hk : search.halvings = .ok k) :
    ∃ i ≤ n, (∀ j ≤ n, c.off circle (sample n i) ≤ c.off circle (sample n j)) ∧
      c.crossing circle search =
        c.halve circle search.inside k.toNat (max 0 (sample n i - 1 / n)) (min 1 (sample n i + 1 / n)) := by
  obtain ⟨i, hi, hrun, hleast⟩ := bestSample_exact c circle hn
  refine ⟨i, hi, hleast, ?_⟩
  have hzero : (0.0 : ℝ) = 0 := by norm_num
  have hone : (1.0 : ℝ) = 1 := by norm_num
  unfold crossing
  rw [hrun, hk, hn, Scalar.ofInt_exact, Int.cast_natCast, Scalar.one_literal]
  change (Scalar.greatest 0.0 (sample n i - 1 / n) >>= fun lo =>
    Scalar.least 1.0 (sample n i + 1 / n) >>= fun hi => c.halve circle search.inside k.toNat lo hi) = _
  rw [Scalar.greatest_exact, Scalar.least_exact, hzero, hone]
  rfl

theorem bracket_le {n i : ℕ} (hi : i ≤ n) : max 0 (sample n i - 1 / n) ≤ min 1 (sample n i + 1 / n) := by
  obtain ⟨h₀, h₁⟩ := sample_mem hi
  have hstep : (0 : ℝ) ≤ 1 / n := by positivity
  exact max_le (le_min zero_le_one (by linarith)) (le_min (by linarith) (by linarith))

/-- What the search finds lies next to a sample that no other one is closer to the circle than. -/
theorem crossing_near_sample (c : Curve ℝ) (circle : Disc ℝ) (search : Search) {n : ℕ} {k : ℤ}
    (hn : search.samples = n) (hk : search.halvings = .ok k) :
    ∃ i ≤ n, (∀ j ≤ n, c.off circle (sample n i) ≤ c.off circle (sample n j)) ∧
      ∃ t ∈ Icc (0 : ℝ) 1, |t - sample n i| ≤ 1 / n ∧ c.crossing circle search = .ok t := by
  obtain ⟨i, hi, hleast, hrun⟩ := crossing_exact c circle hn hk
  obtain ⟨t, ⟨hlo, hhi⟩, ht⟩ := halve_ends c circle search.inside k.toNat (bracket_le hi)
  rw [max_le_iff] at hlo
  rw [le_min_iff] at hhi
  refine ⟨i, hi, hleast, t, ⟨hlo.1, hhi.1⟩, abs_le.mpr ⟨?_, ?_⟩, hrun.trans ht⟩ <;> linarith

theorem crossing_lies (c : Curve ℝ) (circle : Disc ℝ) (inside : Inside) :
    ∃ t ∈ Icc (0 : ℝ) 1, c.crossing circle { inside } = .ok t := by
  obtain ⟨-, -, -, t, ht, -, hrun⟩ := c.crossing_near_sample circle { inside } (n := 100) rfl rfl
  exact ⟨t, ht, hrun⟩

/-- The search comes as close to a single crossing as the number of samples and halvings promises. -/
theorem CrossesAt.crossing_near (search : Search) {s : ℝ} (h : c.CrossesAt circle search.inside s) {n : ℕ}
    {k : ℤ} (hn : search.samples = n) (hpos : 0 < n) (hk : search.halvings = .ok k) :
    ∃ t ∈ Icc (0 : ℝ) 1, c.crossing circle search = .ok t ∧ |t - s| ≤ 1 / (n * 2 ^ k.toNat) := by
  obtain ⟨i, hi, hleast, hrun⟩ := crossing_exact c circle hn hk
  obtain ⟨t, ht, hend⟩ := halve_ends c circle search.inside k.toNat (bracket_le hi)
  have hnear := abs_le.mp (h.near_sample hpos hi hleast)
  have hs : s ∈ Icc (max 0 (sample n i - 1 / n)) (min 1 (sample n i + 1 / n)) :=
    ⟨max_le h.mem.1 (by linarith), le_min h.mem.2 (by linarith)⟩
  refine ⟨t, ⟨(le_max_left _ _).trans ht.1, ht.2.trans (min_le_left _ _)⟩, hrun.trans hend, ?_⟩
  calc |t - s|
      ≤ (min 1 (sample n i + 1 / n) - max 0 (sample n i - 1 / n)) / 2 ^ (k.toNat + 1) :=
        h.halve_near (le_max_left _ _) (min_le_left _ _) hs hend
    _ ≤ (sample n i + 1 / n - (sample n i - 1 / n)) / 2 ^ (k.toNat + 1) := by
        gcongr
        · exact min_le_right _ _
        · exact le_max_right _ _
    _ = 1 / (n * 2 ^ k.toNat) := by
        field_simp
        ring

end Curve
end NodeLink
