import NodeLink.Proofs.Layout.ExactForces
import NodeLink.Proofs.Layout.Springs

/-!
# The law of the forces

Where no two points are in one place, a step moves every point by the damping times the sum of what all other points
do to it: they push it away by the inverse square of their distance, and every edge between the two pulls it back. For
pushing a distance counts as at least 1. It does so for pulling as well, so an edge pulls in proportion to its length
if its ends are at least 1 apart, and too hard if they are closer.
-/

namespace NodeLink

open Finset

namespace Force

/-! ## Sums over pairs -/

/-- How often two places stand together in a list of pairs, in the one order and in the other. -/
def links (row : List (ℕ × ℕ)) (u v : ℕ) : ℕ := row.count (u, v) + row.count (v, u)

theorem opposite_self (i : ℕ) (f : ℂ) : opposite i i f = 0 := by
  rw [opposite, ← Pi.single_add, neg_add_cancel, Pi.single_zero]

section

variable {n v : ℕ} {f : ℕ → ℕ → ℂ} (odd : ∀ i j, f j i = -f i j)

include odd

/-- What one pair does to a place is what the other place does to it. -/
theorem opposite_at {i j : ℕ} (hi : i < n) (hj : j < n) :
    opposite i j (f i j) v = ∑ u ∈ (range n).erase v, links [(i, j)] u v * f u v := by
  have once (a b : ℕ) (w : ℂ) : ([(i, j)].count (a, b) : ℂ) * w = if a = i ∧ b = j then w else 0 := by
    by_cases h : a = i ∧ b = j
    · obtain ⟨rfl, rfl⟩ := h
      simp
    · have hne : (i, j) ≠ (a, b) := fun heq => h (by cases heq; exact ⟨rfl, rfl⟩)
      rw [List.count_singleton, if_neg (by simpa using hne), if_neg h, Nat.cast_zero, zero_mul]
  have term (u : ℕ) : (links [(i, j)] u v : ℂ) * f u v =
      (if u = i then if v = j then f u v else 0 else 0) + if u = j then if v = i then f u v else 0 else 0 := by
    rw [links, Nat.cast_add, add_mul, once, once]
    simp only [and_comm (a := v = i), ite_and]
  simp only [term, sum_add_distrib, sum_ite_eq', mem_erase, mem_range, hi, hj, and_true, opposite, Pi.add_apply,
    Pi.single_apply]
  by_cases hvi : v = i <;> by_cases hvj : v = j
  · simp [← hvi, ← hvj]
  · simp [← hvi, hvj, Ne.symm hvj, odd v j]
  · simp [hvi, ← hvj, Ne.symm hvi]
  · simp [hvi, hvj]

/-- What pairs do to a place is what all other places do to it, each as often as it stands with it in a pair. -/
theorem sum_opposite_at {row : List (ℕ × ℕ)} (inside : ∀ pair ∈ row, pair.1 < n ∧ pair.2 < n) :
    (row.map fun pair => opposite pair.1 pair.2 (f pair.1 pair.2)).sum v =
      ∑ u ∈ (range n).erase v, links row u v * f u v := by
  induction row with
  | nil => simp [links]
  | cons pair row ih =>
    obtain ⟨⟨hi, hj⟩, hrest⟩ := List.forall_mem_cons.mp inside
    have hlinks (u : ℕ) : links (pair :: row) u v = links [pair] u v + links row u v := by
      simp only [links, List.count_cons, List.count_nil]
      omega
    rw [List.map_cons, List.sum_cons, Pi.add_apply, ih hrest, opposite_at odd hi hj, ← sum_add_distrib]
    refine sum_congr rfl fun u _ => ?_
    rw [hlinks, Nat.cast_add, add_mul]

end

theorem nodup_pairs (n : ℕ) : (pairs n).Nodup := by
  rw [pairs, List.nodup_flatMap]
  constructor
  · intro i hi
    refine List.Nodup.map ?_ (List.nodup_range.sublist (List.drop_sublist _ _))
    intro j k hjk
    exact (Prod.mk.inj hjk).2
  · refine List.nodup_range.imp ?_
    intro i k hik pair hi hk
    obtain ⟨_, -, rfl⟩ := List.mem_map.mp hi
    obtain ⟨_, -, heq⟩ := List.mem_map.mp hk
    exact hik (Prod.mk.inj heq).1.symm

/-- Every two places push each other once. -/
theorem links_pairs {n u v : ℕ} (hu : u < n) (hv : v < n) (hne : u ≠ v) : links (pairs n) u v = 1 := by
  have once {i j : ℕ} (hlt : i < j) (hj : j < n) : (pairs n).count (i, j) = 1 ∧ (pairs n).count (j, i) = 0 := by
    constructor
    · exact List.count_eq_one_of_mem (nodup_pairs n) (mem_pairs_iff.mpr ⟨hlt, hj⟩)
    · refine List.count_eq_zero.mpr fun hmem => ?_
      exact absurd (mem_pairs_iff.mp hmem).1 (lt_asymm hlt)
  rcases lt_or_gt_of_ne hne with hlt | hlt
  · obtain ⟨hone, hzero⟩ := once hlt hv
    rw [links, hone, hzero]
  · obtain ⟨hone, hzero⟩ := once hlt hu
    rw [links, hone, hzero]

/-! ## Net forces -/

theorem opposite_symm (i j : ℕ) (f : ℂ) : opposite j i (-f) = opposite i j f := by
  rw [opposite, opposite, neg_neg, add_comm]

theorem foldlM_adds {β : Type} {act : Array (Point ℝ) → β → Drawing (Array (Point ℝ))} (f : β → ℕ → ℂ)
    {items : List β} (adds : ∀ b ∈ items, ∀ forces, (act forces b).Gives (Adds forces · (f b)))
    (forces : Array (Point ℝ)) : (items.foldlM act forces).Gives (Adds forces · (items.map f).sum) := by
  induction items generalizing forces with
  | nil => exact .pure (Adds.refl forces)
  | cons b items ih =>
    obtain ⟨hb, hrest⟩ := List.forall_mem_cons.mp adds
    rw [List.foldlM_cons]
    refine (hb forces).bind fun mid hmid => ?_
    exact (ih hrest mid).mono fun last hlast => hmid.trans hlast

/-- What an edge does to the first of its two ends by the law: it pulls in proportion to the distance. -/
noncomputable def Law.spring (law : Law ℝ) (p q : ℂ) : ℂ := (law.attraction * dist p q : ℝ) * towards p q

variable (law : Law ℝ)

theorem Law.push_symm (p q : ℂ) : law.push q p = -law.push p q := by
  rw [Law.push, Law.push, dist_comm, towards_symm, mul_neg]

theorem Law.tug_symm (p q : ℂ) : law.tug q p = -law.tug p q := by
  rw [Law.tug, Law.tug, dist_comm, towards_symm, mul_neg]

/-- An edge follows the law if its ends are at least 1 apart. -/
theorem Law.tug_of_far {p q : ℂ} (far : 1 ≤ dist p q) : law.tug p q = law.spring p q := by
  rw [Law.tug, Law.spring, max_eq_left far]

/-- What all other points do to a point: they push it, and each link with one of them pulls it there. -/
noncomputable def Law.net (pull : ℂ → ℂ → ℂ) (row : List (ℕ × ℕ)) (points : Array (Point ℝ)) (v : ℕ) : ℂ :=
  ∑ u ∈ (range points.size).erase v,
    (law.push (vec points u) (vec points v) + links row u v * pull (vec points v) (vec points u))

theorem Law.net_of_far {row : List (ℕ × ℕ)} {points : Array (Point ℝ)} {v : ℕ}
    (far : ∀ u < points.size, u ≠ v → 0 < links row u v → 1 ≤ dist (vec points v) (vec points u)) :
    law.net law.tug row points v = law.net law.spring row points v := by
  refine sum_congr rfl fun u hu => ?_
  obtain ⟨hne, hin⟩ := mem_erase.mp hu
  rcases Nat.eq_zero_or_pos (links row u v) with hzero | hlinked
  · rw [hzero, Nat.cast_zero, zero_mul, zero_mul]
  · rw [law.tug_of_far (far u (mem_range.mp hin) hne hlinked)]

variable (draw : ℕ → ℝ) {points : Array (Point ℝ)}

theorem vec_ne_of_nodup (apart : points.toList.Nodup) {i j : ℕ} (hi : i < points.size) (hj : j < points.size)
    (hne : i ≠ j) : vec points i ≠ vec points j := by
  rw [vec_eq (Array.getElem?_eq_getElem hi), vec_eq (Array.getElem?_eq_getElem hj)]
  intro heq
  have hpoint : points.toList[i] = points.toList[j] := Point.toComplex_injective heq
  exact hne (apart.getElem_inj_iff.mp hpoint)

/-- What two places do to all by pushing each other. -/
noncomputable def Law.pushes (points : Array (Point ℝ)) (pair : ℕ × ℕ) : ℕ → ℂ :=
  opposite pair.1 pair.2 (law.push (vec points pair.1) (vec points pair.2))

/-- What an edge does to all places by pulling its ends together. -/
noncomputable def Law.tugs (points : Array (Point ℝ)) (edge : ℕ × ℕ) : ℕ → ℂ :=
  opposite edge.1 edge.2 (law.tug (vec points edge.2) (vec points edge.1))

section

variable (apart : points.toList.Nodup) (forces : Array (Point ℝ))

include apart

theorem repel_apart {pair : ℕ × ℕ} (h : pair ∈ pairs points.size) :
    (repel law draw points forces pair).Gives (Adds forces · (law.pushes points pair)) := by
  obtain ⟨hlt, hin⟩ := mem_pairs_iff.mp h
  refine (repel_exact law draw points forces pair).mono ?_
  rintro forces' ⟨f, hadds, hf⟩
  rwa [hf (vec_ne_of_nodup apart (hlt.trans hin) hin hlt.ne)] at hadds

theorem attract_apart {edge : ℕ × ℕ} (hfirst : edge.1 < points.size) (hsecond : edge.2 < points.size) :
    (attract law draw points forces edge).Gives (Adds forces · (law.tugs points edge)) := by
  refine (attract_exact law draw points forces edge).mono ?_
  rintro forces' ⟨f, hadds, hf⟩
  by_cases same : edge.1 = edge.2
  · -- What is drawn at random for an edge within one place comes to nothing there.
    rw [same, opposite_self] at hadds
    rwa [Law.tugs, same, opposite_self]
  · rw [hf (vec_ne_of_nodup apart hfirst hsecond same)] at hadds
    rwa [Law.tugs, law.tug_symm, opposite_symm]

end

theorem sum_pushes {n v : ℕ} (hv : v < n) :
    ((pairs n).map (law.pushes points)).sum v =
      ∑ u ∈ (range n).erase v, law.push (vec points u) (vec points v) := by
  have inside : ∀ pair ∈ pairs n, pair.1 < n ∧ pair.2 < n := by
    intro pair hpair
    obtain ⟨hlt, hin⟩ := mem_pairs_iff.mp hpair
    exact ⟨hlt.trans hin, hin⟩
  have odd (i j : ℕ) : law.push (vec points j) (vec points i) = -law.push (vec points i) (vec points j) :=
    law.push_symm _ _
  refine (sum_opposite_at odd inside).trans (sum_congr rfl ?_)
  intro u hu
  obtain ⟨hne, hin⟩ := mem_erase.mp hu
  rw [links_pairs (mem_range.mp hin) hv hne, Nat.cast_one, one_mul]

theorem sum_tugs {n v : ℕ} {row : List (ℕ × ℕ)} (inside : ∀ edge ∈ row, edge.1 < n ∧ edge.2 < n) :
    (row.map (law.tugs points)).sum v =
      ∑ u ∈ (range n).erase v, links row u v * law.tug (vec points v) (vec points u) := by
  have odd (i j : ℕ) : law.tug (vec points i) (vec points j) = -law.tug (vec points j) (vec points i) :=
    law.tug_symm _ _
  exact sum_opposite_at (f := fun u v => law.tug (vec points v) (vec points u)) odd inside

/-- Where no two points are in one place, the net forces are the known ones. -/
theorem netForces_exact (apart : points.toList.Nodup) {row : List (ℕ × ℕ)}
    (inside : ∀ edge ∈ row, edge.1 < points.size ∧ edge.2 < points.size) :
    (netForces law draw row points).Gives fun forces =>
      ∀ v < points.size, vec forces v = law.net law.tug row points v := by
  have hpushed : ∀ pair ∈ pairs points.size, ∀ forces,
      (repel law draw points forces pair).Gives (Adds forces · (law.pushes points pair)) :=
    fun pair hpair forces => repel_apart law draw apart forces hpair
  have hpulled : ∀ edge ∈ row, ∀ forces,
      (attract law draw points forces edge).Gives (Adds forces · (law.tugs points edge)) :=
    fun edge hedge forces => attract_apart law draw apart forces (inside edge hedge).1 (inside edge hedge).2
  refine (foldlM_adds _ hpushed _).bind fun pushed hpushes => ?_
  refine (foldlM_adds _ hpulled pushed).mono ?_
  intro forces htugs v hv
  have hstart : v < (Array.replicate points.size (origin : Point ℝ)).size := by rwa [Array.size_replicate]
  rw [(hpushes.trans htugs).vec v hstart, vec_replicate, zero_add, Pi.add_apply, sum_pushes law hv,
    sum_tugs law inside, ← sum_add_distrib, Law.net]

end Force

namespace Layout

open Force

theorem step_by_law (law : Law ℝ) (draw : ℕ → ℝ) {g : Graph} {s : Force.State ℝ}
    (placed : s.points.size = g.slots.length) (apart : s.points.toList.Nodup) :
    ∃ done, step law draw g.pulls s = (done, none) ∧ done.points.size = g.slots.length ∧
      ∀ v < g.slots.length,
        vec done.points v = vec s.points v + law.damping * law.net law.tug g.pulls s.points v := by
  have hnet := netForces_exact law draw apart (Graph.pulls_below placed)
  obtain ⟨forces, done, hforces, -, hstep, hadds⟩ := step_exact law draw hnet
  refine ⟨done, hstep, hadds.size.trans placed, ?_⟩
  intro v hv
  rw [← placed] at hv
  rw [hadds.vec v hv, hforces v hv]

/-- Where all nodes of a graph are in different places, one step of the simulation moves every node by the damping
times the sum, over all other nodes, of a push and of a pull for each edge between the two. Edges that are loops or
lack an end are not among those that pull. A pull counts a distance as at least 1, so the step follows the law at
every node whose edges all have at least this length. -/
theorem step_follows_law (law : Law ℝ) (draw : ℕ → ℝ) (g : Graph) (s : Force.State ℝ)
    (ends : ∀ e ∈ g.edges, e.checkEnds = .ok ()) (placed : s.points.size = g.slots.length)
    (apart : s.points.toList.Nodup) :
    ∃ done, springs g = .ok g.pulls ∧ step law draw g.pulls s = (done, none) ∧
      done.points.size = g.slots.length ∧
      ∀ v < g.slots.length,
        vec done.points v = vec s.points v + law.damping * law.net law.tug g.pulls s.points v ∧
        ((∀ u < g.slots.length, u ≠ v → 0 < links g.pulls u v →
            1 ≤ dist (vec s.points v) (vec s.points u)) →
          vec done.points v = vec s.points v + law.damping * law.net law.spring g.pulls s.points v) := by
  obtain ⟨done, hstep, hsize, hmoved⟩ := step_by_law law draw placed apart
  refine ⟨done, springs_eq ends, hstep, hsize, ?_⟩
  intro v hv
  refine ⟨hmoved v hv, ?_⟩
  intro far
  rw [← placed] at far
  rw [hmoved v hv, law.net_of_far far]

theorem net_of_two (law : Law ℝ) (pull : ℂ → ℂ → ℂ) {p q : Point ℝ} {strength : ℝ}
    (hpull : pull p.toComplex q.toComplex = strength * towards p.toComplex q.toComplex) (row : List (ℕ × ℕ)) :
    law.net pull row #[p, q] 0 =
      (links row 1 0 * strength - law.repulsion / max (dist p.toComplex q.toComplex) 1 ^ 2 : ℝ) *
        towards p.toComplex q.toComplex := by
  have others : (range 2).erase 0 = {1} := rfl
  calc law.net pull row #[p, q] 0
    _ = ∑ u ∈ {1}, (law.push (vec #[p, q] u) p.toComplex + links row u 0 * pull p.toComplex (vec #[p, q] u)) :=
      congrArg (fun places => ∑ u ∈ places, _) others
    _ = law.push q.toComplex p.toComplex + links row 1 0 * pull p.toComplex q.toComplex := sum_singleton _ _
    _ = _ := by
      rw [hpull, law.push_symm, Law.push]
      push_cast
      ring

/-- Two nodes with an edge each way between them, a loop, and an edge that leads nowhere. -/
def couple : Graph := .sketch ["A", "B"] [("A", "B"), ("A", "A"), ("B", "A"), ("A", "C")]

/-- The nodes start at a distance of 5. -/
theorem couple_follows_law :
    (∀ e ∈ couple.edges, e.checkEnds = .ok ()) ∧ [(⟨0, 0⟩ : Point ℝ), ⟨3, 4⟩].Nodup ∧
      dist (⟨0, 0⟩ : ℂ) ⟨3, 4⟩ = 5 ∧
      ∃ done, springs couple = .ok [(0, 1), (1, 0)] ∧
        step ⟨1000, 0.01, 0.85⟩ (fun _ => 0) [(0, 1), (1, 0)] ⟨#[⟨0, 0⟩, ⟨3, 4⟩], 0⟩ = (done, none) ∧
        vec done.points 0 = ⟨-20.349, -27.132⟩ := by
  have ends : ∀ e ∈ couple.edges, e.checkEnds = .ok () := Graph.checkEnds_sketch _ _
  have apart : [(⟨0, 0⟩ : Point ℝ), ⟨3, 4⟩].Nodup := by simp
  have hpulls : couple.pulls = [(0, 1), (1, 0)] := by decide
  have hdist : dist (⟨0, 0⟩ : ℂ) ⟨3, 4⟩ = 5 := by
    rw [Complex.dist_eq_re_im, Real.sqrt_eq_iff_eq_sq] <;> norm_num
  obtain ⟨done, hsprings, hstep, -, hlaw⟩ := step_follows_law ⟨1000, 0.01, 0.85⟩ (fun _ => 0) couple
    ⟨#[⟨0, 0⟩, ⟨3, 4⟩], 0⟩ ends rfl apart
  have far : ∀ u < 2, u ≠ 0 → 0 < links couple.pulls u 0 →
      1 ≤ dist (vec #[⟨0, 0⟩, ⟨3, 4⟩] 0) (vec #[⟨0, 0⟩, ⟨3, 4⟩] u) := by
    intro u hu hne _
    obtain rfl : u = 1 := by omega
    exact (by norm_num : (1 : ℝ) ≤ 5).trans hdist.ge
  have hmoved := (hlaw 0 (by decide)).2 far
  rw [hpulls] at hsprings hstep hmoved
  refine ⟨ends, apart, hdist, done, hsprings, hstep, ?_⟩
  have htowards : towards ⟨0, 0⟩ ⟨3, 4⟩ = ⟨3 / 5, 4 / 5⟩ := by
    rw [towards_of_dist hdist]
    norm_num
  have hnet := net_of_two ⟨1000, 0.01, 0.85⟩ (Law.spring ⟨1000, 0.01, 0.85⟩) (p := ⟨0, 0⟩)
    (q := ⟨3, 4⟩) rfl [(0, 1), (1, 0)]
  have hlinks : links [(0, 1), (1, 0)] 1 0 = 2 := by decide
  have hstart : vec #[⟨0, 0⟩, ⟨3, 4⟩] 0 = 0 := rfl
  rw [hmoved, hnet, hlinks, hstart, zero_add]
  simp only [Point.toComplex, htowards, hdist]
  apply Complex.ext <;> norm_num

/-- Two nodes with one edge. -/
def neighbours : Graph := .sketch ["A", "B"] [("A", "B")]

/-- An edge between nodes at half the distance that counts at least pulls twice as hard as by the law. -/
theorem close_nodes_are_pulled_too_hard :
    ∃ done, springs neighbours = .ok [(0, 1)] ∧
      step ⟨1000, 0.01, 0.85⟩ (fun _ => 0) [(0, 1)] ⟨#[⟨0, 0⟩, ⟨1 / 2, 0⟩], 0⟩ = (done, none) ∧
      vec done.points 0 = ⟨-849.9915, 0⟩ ∧
      vec done.points 0 ≠ vec #[⟨0, 0⟩, ⟨1 / 2, 0⟩] 0 +
        (0.85 : ℝ) * Law.net ⟨1000, 0.01, 0.85⟩ (Law.spring ⟨1000, 0.01, 0.85⟩) [(0, 1)]
          #[⟨0, 0⟩, ⟨1 / 2, 0⟩] 0 := by
  have hpulls : neighbours.pulls = [(0, 1)] := by decide
  have hsprings := springs_eq (Graph.checkEnds_sketch ["A", "B"] [("A", "B")])
  have hdist : dist (⟨0, 0⟩ : ℂ) ⟨1 / 2, 0⟩ = 1 / 2 := by
    rw [Complex.dist_eq_re_im, Real.sqrt_eq_iff_eq_sq] <;> norm_num
  have htowards : towards ⟨0, 0⟩ ⟨1 / 2, 0⟩ = 1 := by
    rw [towards_of_dist hdist]
    apply Complex.ext <;> norm_num
  have hlinks : links [(0, 1)] 1 0 = 1 := by decide
  have hstart : vec #[⟨0, 0⟩, ⟨1 / 2, 0⟩] 0 = 0 := rfl
  have apart : [(⟨0, 0⟩ : Point ℝ), ⟨1 / 2, 0⟩].Nodup := by simp
  obtain ⟨done, hstep, -, hmoved⟩ := step_by_law ⟨1000, 0.01, 0.85⟩ (fun _ => 0) (g := neighbours)
    (s := ⟨#[⟨0, 0⟩, ⟨1 / 2, 0⟩], 0⟩) rfl apart
  -- nodes half a unit apart are tugged as if they were a whole unit apart
  have htug := net_of_two ⟨1000, 0.01, 0.85⟩ (Law.tug ⟨1000, 0.01, 0.85⟩) (p := ⟨0, 0⟩)
    (q := ⟨1 / 2, 0⟩) rfl [(0, 1)]
  have hspring := net_of_two ⟨1000, 0.01, 0.85⟩ (Law.spring ⟨1000, 0.01, 0.85⟩) (p := ⟨0, 0⟩)
    (q := ⟨1 / 2, 0⟩) rfl [(0, 1)]
  have hcomes : vec done.points 0 = ⟨-849.9915, 0⟩ := by
    rw [hmoved 0 (by decide), hpulls, htug, hlinks, hstart, zero_add]
    simp only [Point.toComplex, htowards, hdist]
    apply Complex.ext <;> norm_num
  rw [hpulls] at hstep
  refine ⟨done, hsprings, hstep, hcomes, ?_⟩
  rw [hcomes, hspring, hlinks, hstart, zero_add]
  simp only [Point.toComplex, htowards, hdist]
  intro heq
  have hre := congrArg Complex.re heq
  norm_num at hre

end Layout
end NodeLink
