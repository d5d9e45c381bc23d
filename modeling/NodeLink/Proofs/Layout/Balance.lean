import NodeLink.Proofs.Layout.ExactForces
import NodeLink.Proofs.Layout.Springs

/-!
# The simulation stays in balance

Over the reals every push and every pull comes with its opposite, also where its direction is drawn at random. So the
forces of a step add up to nothing, and however many steps are made, the points of the nodes add up to what they
added up to at the start.
-/

namespace NodeLink

namespace Force

open Finset

/-- The sum of points. -/
noncomputable def total (points : Array (Point ℝ)) : ℂ := ∑ v ∈ range points.size, vec points v

theorem Adds.total {forces forces' : Array (Point ℝ)} {f : ℕ → ℂ} (h : Adds forces forces' f) :
    total forces' = total forces + ∑ v ∈ range forces.size, f v := by
  rw [Force.total, Force.total, h.size, ← sum_add_distrib]
  exact sum_congr rfl fun v hv => h.vec v (mem_range.mp hv)

theorem sum_opposite {i j n : ℕ} (hi : i < n) (hj : j < n) (f : ℂ) : ∑ v ∈ range n, opposite i j f v = 0 := by
  simp only [opposite, Pi.add_apply, sum_add_distrib, sum_pi_single']
  rw [if_pos (mem_range.mpr hi), if_pos (mem_range.mpr hj), neg_add_cancel]

/-- Forces on `n` points that add up to nothing. -/
structure Balanced (n : ℕ) (forces : Array (Point ℝ)) : Prop where
  size : forces.size = n
  total : total forces = 0

theorem Balanced.adds {n i j : ℕ} {forces forces' : Array (Point ℝ)} {f : ℂ} (h : Balanced n forces) (hi : i < n)
    (hj : j < n) (hadds : Adds forces forces' (opposite i j f)) : Balanced n forces' := by
  constructor
  · rw [hadds.size, h.size]
  · rw [hadds.total, h.total, h.size, sum_opposite hi hj, add_zero]

theorem balanced_start (n : ℕ) : Balanced n (Array.replicate n origin) := by
  refine ⟨Array.size_replicate, sum_eq_zero ?_⟩
  intro v hv
  exact vec_replicate n v

variable (law : Law ℝ) (draw : ℕ → ℝ) {edges : List (ℕ × ℕ)}

/-- The net forces of a step add up to nothing. -/
theorem netForces_balanced {points : Array (Point ℝ)}
    (ends : ∀ edge ∈ edges, edge.1 < points.size ∧ edge.2 < points.size) :
    (netForces law draw edges points).Gives (Balanced points.size) := by
  have hpushed : ((pairs points.size).foldlM (repel law draw points) (Array.replicate points.size origin)).Gives
      (Balanced points.size) := by
    refine .foldlM ?_ (balanced_start points.size)
    intro pair hpair forces hforces
    obtain ⟨hlt, hin⟩ := mem_pairs_iff.mp hpair
    refine (repel_exact law draw points forces pair).mono ?_
    rintro forces' ⟨f, hadds, -⟩
    exact hforces.adds (hlt.trans hin) hin hadds
  refine hpushed.bind fun pushed hbalanced => ?_
  refine .foldlM ?_ hbalanced
  intro edge hedge forces hforces
  obtain ⟨hfirst, hsecond⟩ := ends edge hedge
  refine (attract_exact law draw points forces edge).mono ?_
  rintro forces' ⟨f, hadds, -⟩
  exact hforces.adds hsecond hfirst hadds

theorem step_keeps_total {s : State ℝ} (ends : ∀ edge ∈ edges, edge.1 < s.points.size ∧ edge.2 < s.points.size) :
    ∃ done, step law draw edges s = (done, none) ∧ done.points.size = s.points.size ∧
      total done.points = total s.points := by
  obtain ⟨forces, done, hbalanced, -, hstep, hadds⟩ := step_exact law draw (netForces_balanced law draw ends)
  refine ⟨done, hstep, hadds.size, ?_⟩
  have hzero : ∑ v ∈ range s.points.size, vec forces v = 0 := by
    rw [← hbalanced.size]
    exact hbalanced.total
  rw [hadds.total, ← mul_sum, hzero, mul_zero, add_zero]

/-- Any number of steps keeps the sum of the points. -/
theorem steps_keep_total (count : ℕ) {s : State ℝ}
    (ends : ∀ edge ∈ edges, edge.1 < s.points.size ∧ edge.2 < s.points.size) :
    ∃ done, steps law draw edges count s = (done, none) ∧ done.points.size = s.points.size ∧
      total done.points = total s.points := by
  induction count generalizing s with
  | zero => exact ⟨s, rfl, rfl, rfl⟩
  | succ count ih =>
    obtain ⟨next, hstep, hsize, htotal⟩ := step_keeps_total law draw ends
    obtain ⟨done, hsteps, hsize', htotal'⟩ := ih (s := next) (by rwa [hsize])
    refine ⟨done, ?_, hsize'.trans hsize, htotal'.trans htotal⟩
    rw [steps, hstep]
    exact hsteps

end Force

namespace Layout

open Force

/-- The simulation comes to its end from any points, and never moves the sum of the points of the nodes: for every
graph, all strengths of the forces, every number of steps and every stream of random numbers. -/
theorem simulation_keeps_total (law : Law ℝ) (draw : ℕ → ℝ) (g : Graph) (iterations : ℤ) (start : Force.State ℝ)
    (ends : ∀ e ∈ g.edges, e.checkEnds = .ok ()) (placed : start.points.size = g.slots.length) :
    ∃ edges done, plan g (.whole iterations) = .ok (edges, iterations) ∧
      steps law draw edges iterations.toNat start = (done, none) ∧ done.points.size = g.slots.length ∧
      total done.points = total start.points := by
  obtain ⟨done, hsteps, hsize, htotal⟩ :=
    steps_keep_total law draw iterations.toNat (Graph.pulls_below placed)
  exact ⟨g.pulls, done, plan_eq ends iterations, hsteps, hsize.trans placed, htotal⟩

/-- Nodes with a loop, an edge each way between two of them, two more side by side, and one that leads nowhere. -/
def knot : Graph :=
  .sketch ["A", "B", "C"] [("A", "A"), ("A", "B"), ("B", "A"), ("A", "C"), ("A", "C"), ("A", "D")]

/-- Two of the nodes start in one place. -/
theorem knot_keeps_total :
    (∀ e ∈ knot.edges, e.checkEnds = .ok ()) ∧
      ∃ edges done, plan knot (.whole 50) = .ok (edges, 50) ∧
        steps ⟨1000, 0.01, 0.85⟩ (fun _ => 0.25) edges 50 ⟨#[⟨5, 5⟩, ⟨5, 5⟩, ⟨8, 9⟩], 3⟩ = (done, none) ∧
        done.points.size = 3 ∧ total done.points = ⟨18, 19⟩ := by
  have ends : ∀ e ∈ knot.edges, e.checkEnds = .ok () := Graph.checkEnds_sketch _ _
  obtain ⟨edges, done, hplan, hsteps, hsize, htotal⟩ := simulation_keeps_total ⟨1000, 0.01, 0.85⟩
    (fun _ => 0.25) knot 50 ⟨#[⟨5, 5⟩, ⟨5, 5⟩, ⟨8, 9⟩], 3⟩ ends rfl
  have hstart : total #[(⟨5, 5⟩ : Point ℝ), ⟨5, 5⟩, ⟨8, 9⟩] = ⟨18, 19⟩ := by
    apply Complex.ext <;> norm_num [total, Finset.sum_range_succ, vec, Point.toComplex]
  exact ⟨ends, edges, done, hplan, hsteps, hsize, htotal.trans hstart⟩

end Layout
end NodeLink
