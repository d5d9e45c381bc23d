import NodeLink.Proofs.Geometry.Exact
import NodeLink.Proofs.Layout.Simulation

/-!
# Forces over the reals

Over the reals no step of the simulation fails. Whatever a pair of points or an edge does, it does to two places at
once and in opposite directions, and between points that stand apart the force is known. A step moves every point
by its net force times the damping.
-/

namespace NodeLink.Force

open Scalar Finset

theorem origin_exact : (origin : Point ℝ) = ⟨0, 0⟩ := by
  change (⟨(0.0 : ℝ), (0.0 : ℝ)⟩ : Point ℝ) = ⟨0, 0⟩
  norm_num

/-- The vector in a place, zero where there is none. -/
noncomputable def vec (points : Array (Point ℝ)) (v : ℕ) : ℂ := (points.getD v origin).toComplex

theorem vec_replicate (n v : ℕ) : vec (Array.replicate n origin) v = 0 := by
  have horigin : (Array.replicate n origin).getD v origin = (origin : Point ℝ) := by
    rw [Array.getD_eq_getD_getElem?, Array.getElem?_replicate]
    split <;> rfl
  rw [vec, horigin, origin_exact]
  rfl

theorem vec_eq {points : Array (Point ℝ)} {v : ℕ} {p : Point ℝ} (h : points[v]? = some p) :
    vec points v = p.toComplex := by
  rw [vec, Array.getD_eq_getD_getElem?, h, Option.getD_some]

/-! ## Pulls -/

theorem pullAlong_exact (a b : Point ℝ) (distance : ℝ) :
    ∃ p, pullAlong ⟨b.x - a.x, b.y - a.y⟩ distance = .ok p ∧ p.distance = max distance 1 ∧
      p.along.toComplex = (b.toComplex - a.toComplex) / distance := by
  refine ⟨⟨⟨(b.x - a.x) / distance, (b.y - a.y) / distance⟩, max distance 1.0⟩, ?_, ?_, ?_⟩
  · refine (bind_of_ok rfl _).trans ?_
    exact bind_of_ok (greatest_exact distance (1.0 : ℝ)) _
  · norm_num
  · apply Complex.ext <;> simp [Point.toComplex]

/-- Between points that stand apart a pull goes straight from one to the other. -/
theorem pull_exact (draw : ℕ → ℝ) (a b : Point ℝ) :
    (pull draw a b).Gives fun p => a.toComplex ≠ b.toComplex →
      p.distance = max (dist a.toComplex b.toComplex) 1 ∧
        p.along.toComplex = towards a.toComplex b.toComplex := by
  have hlength : hypot (b.x - a.x) (b.y - a.y) = dist a.toComplex b.toComplex := Point.distance_eq_dist a b
  refine .lift_bind rfl (.lift_bind (b := dist a.toComplex b.toComplex) (congrArg Except.ok hlength)
    (.lift_bind (b := decide (dist a.toComplex b.toComplex = 0)) ?_ ?_))
  · rw [zero_literal]
    rfl
  · by_cases same : dist a.toComplex b.toComplex = 0
    · rw [if_pos (decide_eq_true same)]
      exact fun _ => ⟨_, _, rfl, fun apart => absurd (dist_eq_zero.mp same) apart⟩
    · rw [if_neg (by simpa using same)]
      obtain ⟨p, hp, hdistance, halong⟩ := pullAlong_exact a b (dist a.toComplex b.toComplex)
      exact .lift hp fun _ => ⟨hdistance, halong⟩

/-! ## What is added to forces -/

/-- The second forces are the first ones with `f` added in every place. -/
structure Adds (forces forces' : Array (Point ℝ)) (f : ℕ → ℂ) : Prop where
  size : forces'.size = forces.size
  vec : ∀ v < forces.size, vec forces' v = vec forces v + f v

theorem Adds.trans {forces forces' forces'' : Array (Point ℝ)} {f g : ℕ → ℂ} (h : Adds forces forces' f)
    (h' : Adds forces' forces'' g) : Adds forces forces'' (f + g) := by
  constructor
  · rw [h'.size, h.size]
  · intro v hv
    rw [h'.vec v (by rwa [h.size]), h.vec v hv, Pi.add_apply, add_assoc]

theorem Adds.refl (forces : Array (Point ℝ)) : Adds forces forces 0 :=
  ⟨rfl, fun _ _ => (add_zero _).symm⟩

theorem change_adds (forces : Array (Point ℝ)) (place : ℕ) {f : Point ℝ → Except Fault (Point ℝ)} {w : ℂ}
    (hf : ∀ p, ∃ q, f p = .ok q ∧ q.toComplex = p.toComplex + w) :
    ∃ forces', change forces place f = .ok forces' ∧ Adds forces forces' (Pi.single place w) := by
  unfold change
  cases hplace : forces[place]? with
  | none =>
    refine ⟨forces, rfl, rfl, ?_⟩
    intro v hv
    have hne : v ≠ place := by
      rintro rfl
      rw [Array.getElem?_eq_getElem hv] at hplace
      cases hplace
    rw [Pi.single_eq_of_ne hne, add_zero]
  | some force =>
    obtain ⟨q, hq, hadded⟩ := hf force
    refine ⟨forces.setIfInBounds place q, bind_of_ok hq _, Array.size_setIfInBounds, ?_⟩
    intro v hv
    by_cases hv' : v = place
    · subst hv'
      have hset : (forces.setIfInBounds v q)[v]? = some q := by
        rw [Array.getElem?_setIfInBounds_self_of_lt hv]
      rw [vec_eq hset, vec_eq hplace, hadded, Pi.single_eq_same]
    · rw [Pi.single_eq_of_ne hv', add_zero, Force.vec, Force.vec, Array.getD_eq_getD_getElem?,
        Array.getD_eq_getD_getElem?, Array.getElem?_setIfInBounds_ne (Ne.symm hv')]

theorem plus_exact (w p : Point ℝ) : ∃ q, plus p w = .ok q ∧ q.toComplex = p.toComplex + w.toComplex :=
  ⟨_, rfl, rfl⟩

theorem minus_exact (w p : Point ℝ) : ∃ q, minus p w = .ok q ∧ q.toComplex = p.toComplex + -w.toComplex := by
  refine ⟨_, rfl, ?_⟩
  rw [← sub_eq_add_neg]
  rfl

/-! ## Forces in opposite pairs -/

/-- What the first of two points does to the second by pushing it away. -/
noncomputable def Law.push (law : Law ℝ) (p q : ℂ) : ℂ := (law.repulsion / max (dist p q) 1 ^ 2 : ℝ) * towards p q

/-- What an edge does to the first of its two ends by pulling it to the second. -/
noncomputable def Law.tug (law : Law ℝ) (p q : ℂ) : ℂ := (law.attraction * max (dist p q) 1 : ℝ) * towards p q

/-- A force in one place and its opposite in another. -/
noncomputable def opposite (i j : ℕ) (f : ℂ) : ℕ → ℂ := Pi.single i (-f) + Pi.single j f

variable (law : Law ℝ) (draw : ℕ → ℝ) (points forces : Array (Point ℝ))

theorem repel_exact (pair : ℕ × ℕ) :
    (repel law draw points forces pair).Gives fun forces' =>
      ∃ f, Adds forces forces' (opposite pair.1 pair.2 f) ∧
        (vec points pair.1 ≠ vec points pair.2 → f = law.push (vec points pair.1) (vec points pair.2)) := by
  refine (pull_exact draw _ _).bind ?_
  intro p hp
  let force := p.along.scaled (law.repulsion / (p.distance * p.distance))
  obtain ⟨mid, hmid, hminus⟩ := change_adds forces pair.1 (minus_exact force)
  obtain ⟨last, hlast, hplus⟩ := change_adds mid pair.2 (plus_exact force)
  refine .lift_bind rfl (.lift_bind hmid (.lift hlast ⟨force.toComplex, hminus.trans hplus, ?_⟩))
  intro apart
  obtain ⟨hdistance, halong⟩ := hp apart
  rw [Point.toComplex_scaled, halong, hdistance, ← sq]
  rfl

theorem attract_exact (edge : ℕ × ℕ) :
    (attract law draw points forces edge).Gives fun forces' =>
      ∃ f, Adds forces forces' (opposite edge.2 edge.1 f) ∧
        (vec points edge.1 ≠ vec points edge.2 → f = law.tug (vec points edge.1) (vec points edge.2)) := by
  refine (pull_exact draw _ _).bind ?_
  intro p hp
  let force := p.along.scaled (p.distance * law.attraction)
  obtain ⟨mid, hmid, hplus⟩ := change_adds forces edge.1 (plus_exact force)
  obtain ⟨last, hlast, hminus⟩ := change_adds mid edge.2 (minus_exact force)
  have hadds : Adds forces last (opposite edge.2 edge.1 force.toComplex) := by
    rw [opposite, add_comm]
    exact hplus.trans hminus
  refine .lift_bind rfl (.lift_bind hmid (.lift hlast ⟨force.toComplex, hadds, ?_⟩))
  intro apart
  obtain ⟨hdistance, halong⟩ := hp apart
  rw [Point.toComplex_scaled, halong, hdistance, mul_comm _ law.attraction]
  rfl

/-! ## Steps -/

theorem moveAll_exact (damping : ℝ) (moves : List (Point ℝ × Point ℝ)) :
    moveAll damping moves =
      (moves.map fun m => ⟨m.1.x + m.2.x * damping, m.1.y + m.2.y * damping⟩, none) := by
  induction moves with
  | nil => rfl
  | cons move rest ih =>
    have hsettle (x : ℝ) : settle x = .ok x := rfl
    simp only [moveAll, hsettle, ih, List.map_cons]

theorem step_exact {edges : List (ℕ × ℕ)} {s : State ℝ} {P : Array (Point ℝ) → Prop}
    (h : (netForces law draw edges s.points).Gives P) :
    ∃ forces done, P forces ∧ forces.size = s.points.size ∧ step law draw edges s = (done, none) ∧
      Adds s.points done.points fun v => law.damping * vec forces v := by
  obtain ⟨forces, draws, hrun, hP⟩ := h s.draws
  have hsize := size_netForces hrun
  let moves := s.points.toList.zip forces.toList
  let moved : List (Point ℝ) :=
    moves.map fun m => ⟨m.1.x + m.2.x * law.damping, m.1.y + m.2.y * law.damping⟩
  refine ⟨forces, ⟨moved.toArray, draws⟩, hP, hsize, ?_, ?_, ?_⟩
  · rw [step, hrun]
    dsimp only
    rw [moveAll_exact]
  · simp [moved, moves, hsize]
  · intro v hv
    obtain ⟨p, hp⟩ : ∃ p, s.points[v]? = some p := ⟨_, Array.getElem?_eq_getElem hv⟩
    obtain ⟨force, hf⟩ : ∃ force, forces[v]? = some force := ⟨_, Array.getElem?_eq_getElem (by rwa [hsize])⟩
    have hm : moved.toArray[v]? = some ⟨p.x + force.x * law.damping, p.y + force.y * law.damping⟩ := by
      simp only [moved, moves, List.getElem?_toArray, List.getElem?_map, Option.map_eq_some_iff]
      exact ⟨(p, force), List.getElem?_zip_eq_some.mpr ⟨by simpa using hp, by simpa using hf⟩, rfl⟩
    rw [vec_eq hm, vec_eq hp, vec_eq hf]
    apply Complex.ext <;> simp [Point.toComplex, mul_comm]

end NodeLink.Force
