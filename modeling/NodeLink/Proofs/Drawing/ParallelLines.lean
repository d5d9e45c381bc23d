import NodeLink.Proofs.Drawing.ParallelEdges
import NodeLink.Proofs.Drawing.Viewport
import NodeLink.Proofs.Geometry.SubCurves

/-!
# The lines of parallel edges

From centre to centre the line of an edge is a bow, flat for a straight edge, and bows of different bulges meet at
their ends only. Parallel edges have different curvatures, so two bent ones have different bulges. A straight one
has curvature 0, and no curvature of a fan takes the bulge of a bent one away: that would be the curvature -1, and
the steps of a fan never lead there.
-/

namespace NodeLink

open Set

theorem Point.eq_of_distance {a b : Point ℝ} (h : a.distance b = 0) : a = b := by
  rw [distance_eq_dist, dist_eq_zero] at h
  obtain ⟨hx, hy⟩ := Complex.mk.inj h
  cases a
  cases b
  rw [Point.mk.injEq]
  exact ⟨hx, hy⟩

namespace Curve

variable {a b : Point ℝ} {h h' : ℝ}

theorem eval_bow_along (a b : Point ℝ) (h t : ℝ) :
    (((bow a b h).eval t).x - a.x) * (b.x - a.x) + (((bow a b h).eval t).y - a.y) * (b.y - a.y) =
      t * ((b.x - a.x) ^ 2 + (b.y - a.y) ^ 2) := by
  simp only [bow, eval]
  ring

theorem eval_bow_off (a b : Point ℝ) (h t : ℝ) :
    (((bow a b h).eval t).y - a.y) * (b.x - a.x) - (((bow a b h).eval t).x - a.x) * (b.y - a.y) =
      2 * (t * (1 - t)) * h * ((b.x - a.x) ^ 2 + (b.y - a.y) ^ 2) := by
  simp only [bow, eval]
  ring

theorem eval_bow_zero (a b : Point ℝ) (h : ℝ) : (bow a b h).eval 0 = a := by
  simp [bow, eval]

theorem eval_bow_one (a b : Point ℝ) (h : ℝ) : (bow a b h).eval 1 = b := by
  simp [bow, eval]

/-- Bows of different bulges over one chord have a point in common at their ends only. -/
theorem bows_meet (apart : a.distance b ≠ 0) (differ : h ≠ h') {t u : ℝ}
    (meet : (bow a b h).eval t = (bow a b h').eval u) : t = 0 ∨ t = 1 := by
  have hchord : (b.x - a.x) ^ 2 + (b.y - a.y) ^ 2 ≠ 0 := (Real.sqrt_ne_zero'.mp apart).ne'
  have halong := eval_bow_along a b h t
  rw [meet, eval_bow_along] at halong
  have htu : u = t := mul_right_cancel₀ hchord halong
  have hoff := eval_bow_off a b h t
  rw [meet, eval_bow_off, htu] at hoff
  have hbulge : 2 * (t * (1 - t)) * h' = 2 * (t * (1 - t)) * h := mul_right_cancel₀ hchord hoff
  by_contra hinner
  obtain ⟨hzero, hone⟩ := not_or.mp hinner
  have hrest : 1 - t ≠ 0 := sub_ne_zero.mpr (Ne.symm hone)
  have hweight : 2 * (t * (1 - t)) ≠ 0 := mul_ne_zero two_ne_zero (mul_ne_zero hzero hrest)
  exact differ (mul_left_cancel₀ hweight hbulge).symm

theorem bows_inter (apart : a.distance b ≠ 0) (differ : h ≠ h') :
    (bow a b h).eval '' Icc 0 1 ∩ (bow a b h').eval '' Icc 0 1 = {a, b} := by
  ext p
  constructor
  · rintro ⟨⟨t, -, rfl⟩, u, -, hu⟩
    rcases bows_meet apart differ hu.symm with rfl | rfl
    · exact Or.inl (eval_bow_zero a b h)
    · exact Or.inr (eval_bow_one a b h)
  · rintro (rfl | rfl)
    · exact ⟨⟨0, by simp, eval_bow_zero _ b h⟩, 0, by simp, eval_bow_zero _ b h'⟩
    · exact ⟨⟨1, by simp, eval_bow_one a _ h⟩, 1, by simp, eval_bow_one a _ h'⟩

end Curve

/-! ## Bulges of a fan -/

/-- The steps of a fan do not lead to the curvature that takes the bulge of a bent edge away. -/
theorem spread_ne_neg_one (i n : ℕ) : spread i n ≠ -1 := by
  intro hspread
  have hreal : 4 * (i : ℝ) - 2 * n + 7 = 0 := by
    rw [spread_eq] at hspread
    linarith
  have hodd : 4 * (i : ℤ) - 2 * n + 7 = 0 := by exact_mod_cast hreal
  omega

theorem bulge_injective : Function.Injective bulge := by
  intro c c' hbulge
  unfold bulge at hbulge
  linarith

theorem bulge_eq_zero {curvature : ℝ} (h : bulge curvature = 0) : curvature = -1 := by
  unfold bulge at h
  linarith

namespace Centreline

/-- The points of a centreline. -/
def points (l : Centreline ℝ) : Set (Point ℝ) := l.eval '' Icc 0 1

theorem points_toCentreline (c : Curve ℝ) : c.toCentreline.points = c.trace (Icc 0 1) :=
  (c.trace_eq_image (Icc 0 1)).symm

end Centreline

namespace SceneEdge

open Curve

/-- The line of an edge from centre to centre, before it is clipped. -/
noncomputable def wholeLine (style : Style ℝ) (e : SceneEdge ℝ) : Except Fault (Centreline ℝ) := do
  if ← e.isCurved style then return (← Centreline.fullCurve e.source e.target e.curvature).toCentreline
  else return ⟨e.source.centre, none, e.target.centre⟩

variable {style : Style ℝ} {e : SceneEdge ℝ}

theorem isCurved_cases (style : Style ℝ) (e : SceneEdge ℝ) :
    e.isCurved style = .ok true ∨ e.isCurved style = .ok false ∧ e.curvature = 0 := by
  unfold isCurved
  rw [Scalar.zero_literal]
  split
  · exact Or.inl rfl
  · change Except.ok (!decide (e.curvature = 0)) = .ok true ∨ Except.ok (!decide (e.curvature = 0)) = .ok false ∧ _
    by_cases hzero : e.curvature = 0
    · exact Or.inr ⟨by rw [decide_eq_true hzero]; rfl, hzero⟩
    · exact Or.inl (by rw [decide_eq_false hzero]; rfl)

theorem wholeLine_curved (apart : e.source.centre.distance e.target.centre ≠ 0)
    (h : e.isCurved style = .ok true) :
    e.wholeLine style = .ok (bow e.source.centre e.target.centre (bulge e.curvature)).toCentreline := by
  refine (bind_of_ok h _).trans ?_
  exact bind_of_ok (Centreline.fullCurve_exact apart e.curvature) _

theorem wholeLine_straight (h : e.isCurved style = .ok false) :
    e.wholeLine style = .ok ⟨e.source.centre, none, e.target.centre⟩ :=
  bind_of_ok h _

theorem eval_straight (a b : Point ℝ) : (Centreline.mk a none b).eval = (bow a b 0).eval := by
  funext u
  simp only [Centreline.eval, Centreline.toCurve?, Option.map_none, bow, eval, Point.mk.injEq]
  constructor <;> ring

theorem wholeLine_bow (style : Style ℝ) (apart : e.source.centre.distance e.target.centre ≠ 0) :
    ∃ l h, e.wholeLine style = .ok l ∧ l.points = (bow e.source.centre e.target.centre h).eval '' Icc 0 1 ∧
      (h = bulge e.curvature ∨ h = 0 ∧ e.curvature = 0) := by
  rcases isCurved_cases style e with curved | ⟨straight, hzero⟩
  · exact ⟨_, _, wholeLine_curved apart curved, rfl, Or.inl rfl⟩
  · refine ⟨_, 0, wholeLine_straight straight, ?_, Or.inr ⟨rfl, hzero⟩⟩
    rw [Centreline.points, eval_straight]

theorem points_chord {source target : Disc ℝ} (hs : 0 ≤ source.radius) (ht : 0 ≤ target.radius)
    (apart : source.centre.distance target.centre ≠ 0)
    (clear : source.radius + target.radius ≤ source.centre.distance target.centre) :
    (Centreline.chord source target (source.centre.distance target.centre)).points ⊆
      (Centreline.mk source.centre none target.centre).points := by
  set d := source.centre.distance target.centre
  have hd : 0 < d := lt_of_le_of_ne (Point.distance_nonneg _ _) apart.symm
  have hstart : source.radius / d ∈ Icc (0 : ℝ) 1 :=
    ⟨div_nonneg hs hd.le, div_le_one_of_le₀ (by linarith) hd.le⟩
  have hfinish : 1 - target.radius / d ∈ Icc (0 : ℝ) 1 := by
    have hshare : target.radius / d ≤ 1 := div_le_one_of_le₀ (by linarith) hd.le
    have : 0 ≤ target.radius / d := div_nonneg ht hd.le
    constructor <;> linarith
  rintro _ ⟨u, ⟨h₀, h₁⟩, rfl⟩
  refine ⟨(1 - u) * (source.radius / d) + u * (1 - target.radius / d), ?_, ?_⟩
  · exact convex_Icc 0 1 hstart hfinish (by linarith) h₀ (by ring)
  · simp only [Centreline.eval, Centreline.toCurve?, Centreline.chord, Option.map_none, Point.mk.injEq]
    constructor <;> ring

theorem points_line? {l line : Centreline ℝ} (hs : 0 ≤ e.source.radius) (ht : 0 ≤ e.target.radius)
    (apart : e.source.centre.distance e.target.centre ≠ 0) (hwhole : e.wholeLine style = .ok l)
    (hline : e.line? style = .ok (some line)) : line.points ⊆ l.points := by
  obtain ⟨curved, hcurved, hline⟩ := bind_eq_ok hline
  have clear : e.source.radius + e.target.radius ≤ e.source.centre.distance e.target.centre := by
    by_contra overlap
    rw [Centreline.clipped?_overlapping (Or.inr (not_le.mp overlap))] at hline
    cases hline
  cases curved with
  | true =>
    rw [wholeLine_curved apart hcurved] at hwhole
    cases hwhole
    obtain ⟨t₀, ht₀, t₁, ht₁, hpart⟩ := clipped?_part apart clear e.curvature
    rw [hpart] at hline
    cases hline
    rw [Centreline.points_toCentreline, Centreline.points_toCentreline, trace_part, trace_eq_image, trace_eq_image]
    exact image_mono (ordConnected_Icc.uIcc_subset ht₀ ht₁)
  | false =>
    rw [wholeLine_straight hcurved] at hwhole
    cases hwhole
    rw [Centreline.clipped?_exact apart clear, if_neg Bool.false_ne_true] at hline
    cases hline
    exact points_chord hs ht apart clear

/-- An edge of a scene that stands for a fanned out edge between two circles. -/
structure Shows (e : SceneEdge ℝ) (f : FannedEdge ℝ) (source target : Disc ℝ) : Prop where
  source : e.source = source
  target : e.target = target
  kind : e.kind = f.edge.kind
  curvature : e.curvature = f.curvature

end SceneEdge

namespace FannedEdge

/-- An edge of a scene for a fanned out edge between two circles. -/
def inScene (f : FannedEdge ℝ) (source target : Disc ℝ) : SceneEdge ℝ where
  index := 0
  id := f.edge.id
  source := source
  target := target
  kind := f.edge.kind
  thickness := 1
  curvature := f.curvature
  label := .null
  color := .null

theorem inScene_shows (f : FannedEdge ℝ) (source target : Disc ℝ) :
    (f.inScene source target).Shows f source target :=
  ⟨rfl, rfl, rfl, rfl⟩

end FannedEdge

namespace Graph

open Curve

variable {edges : List Edge} {i j : ℕ} {f g : FannedEdge ℝ}

theorem pair_in_place (h : (exactFan edges)[i]? = some f) : (edges.map Edge.pair)[i]? = some f.edge.pair := by
  rw [List.getElem?_map, ← map_edge_exactFan edges, List.getElem?_map, h]
  rfl

theorem curvatures_differ (hi : (exactFan edges)[i]? = some f) (hj : (exactFan edges)[j]? = some g)
    (same : f.edge.pair = g.edge.pair) (differ : i ≠ j) : f.curvature ≠ g.curvature := by
  rw [curvature_in_place hi, curvature_in_place hj, same, curvatureAt, curvatureAt]
  have hpair := pair_in_place hi
  rw [same] at hpair
  rcases Nat.lt_or_gt_of_ne differ with before | after
  · exact (spread_lt (rank_lt hpair before) _).ne
  · exact (spread_lt (rank_lt (pair_in_place hj) after) _).ne'

theorem curvature_ne_neg_one (hi : (exactFan edges)[i]? = some f) : f.curvature ≠ -1 := by
  rw [curvature_in_place hi]
  exact spread_ne_neg_one _ _

theorem bulges_differ (hi : (exactFan edges)[i]? = some f) (hj : (exactFan edges)[j]? = some g)
    (same : f.edge.pair = g.edge.pair) (differ : i ≠ j) {h h' : ℝ}
    (hf : h = bulge f.curvature ∨ h = 0 ∧ f.curvature = 0)
    (hg : h' = bulge g.curvature ∨ h' = 0 ∧ g.curvature = 0) : h ≠ h' := by
  have hcurvatures := curvatures_differ hi hj same differ
  rintro rfl
  rcases hf with rfl | ⟨rfl, hfzero⟩
  · rcases hg with hg | ⟨hzero, -⟩
    · exact hcurvatures (bulge_injective hg)
    · exact curvature_ne_neg_one hi (bulge_eq_zero hzero)
  · rcases hg with hg | ⟨-, hgzero⟩
    · exact curvature_ne_neg_one hj (bulge_eq_zero hg.symm)
    · exact hcurvatures (hfzero.trans hgzero.symm)

/-- The lines of two edges that connect the same nodes in the same direction, from centre to centre, have nothing
in common but the two centres, whatever their kinds, whether or not all edges are curved, and wherever other edges
stand in the list. What is drawn of the lines has nothing else in common either. -/
theorem parallel_edges_never_cover (style : Style ℝ) (edges : List Edge)
    (ends : ∀ e ∈ edges, e.checkEnds = .ok ()) :
    ∃ fanned, fan ℝ edges = .ok fanned ∧ fanned.map (·.edge) = edges ∧
      ∀ (i j : ℕ) (f g : FannedEdge ℝ), i ≠ j → fanned[i]? = some f → fanned[j]? = some g →
        f.edge.pair = g.edge.pair →
        ∀ (source target : Disc ℝ) (p q : SceneEdge ℝ), source.centre ≠ target.centre →
          p.Shows f source target → q.Shows g source target →
          ∃ l m, p.wholeLine style = .ok l ∧ q.wholeLine style = .ok m ∧
            l.points ∩ m.points = {source.centre, target.centre} ∧
            (0 ≤ source.radius → 0 ≤ target.radius → ∀ l' m', p.line? style = .ok (some l') →
              q.line? style = .ok (some m') → l'.points ∩ m'.points ⊆ {source.centre, target.centre}) := by
  refine ⟨exactFan edges, fan_exact ends, map_edge_exactFan edges, ?_⟩
  intro i j f g differ hi hj same source target p q centres hp hq
  have apart : source.centre.distance target.centre ≠ 0 := fun h => centres (Point.eq_of_distance h)
  obtain ⟨rfl, rfl, -, hpc⟩ := hp
  obtain ⟨hsource, htarget, -, hqc⟩ := hq
  obtain ⟨l, h, hl, hlpoints, hf⟩ := p.wholeLine_bow style apart
  obtain ⟨m, h', hm, hmpoints, hg⟩ := q.wholeLine_bow style (by rwa [hsource, htarget])
  rw [hpc] at hf
  rw [hqc] at hg
  rw [hsource, htarget] at hmpoints
  have hmeet : l.points ∩ m.points = {p.source.centre, p.target.centre} := by
    rw [hlpoints, hmpoints]
    exact bows_inter apart (bulges_differ hi hj same differ hf hg)
  refine ⟨l, m, hl, hm, hmeet, ?_⟩
  intro hs ht l' m' hl' hm'
  rw [← hmeet]
  apply inter_subset_inter
  · exact SceneEdge.points_line? hs ht apart hl hl'
  · rw [← hsource] at hs apart
    rw [← htarget] at ht apart
    exact SceneEdge.points_line? hs ht apart hm hm'

/-- The first two edges of a pair between circles that touch, with an edge back in between. -/
theorem tangled_edges_meet_at_ends :
    ∃ fanned f g l m, fan ℝ tangled = .ok fanned ∧ fanned[0]? = some f ∧ fanned[2]? = some g ∧
      (f.inScene ⟨⟨0, 0⟩, 2⟩ ⟨⟨3, 4⟩, 3⟩).wholeLine Scene.usual = .ok l ∧
      (g.inScene ⟨⟨0, 0⟩, 2⟩ ⟨⟨3, 4⟩, 3⟩).wholeLine Scene.usual = .ok m ∧
      l.points ∩ m.points = {⟨0, 0⟩, ⟨3, 4⟩} := by
  obtain ⟨fanned, hfan, hedges, hmeet⟩ := parallel_edges_never_cover Scene.usual tangled tangled_ends
  have hplace {i : ℕ} (hi : tangled[i]? = some (link "A" "B")) :
      ∃ f, fanned[i]? = some f ∧ f.edge = link "A" "B" := by
    rw [← hedges, List.getElem?_map] at hi
    exact Option.map_eq_some_iff.mp hi
  obtain ⟨f, hf, hfe⟩ := hplace (i := 0) rfl
  obtain ⟨g, hg, hge⟩ := hplace (i := 2) rfl
  have centres : (⟨0, 0⟩ : Point ℝ) ≠ ⟨3, 4⟩ := by simp
  obtain ⟨l, m, hl, hm, hinter, -⟩ := hmeet 0 2 f g (by decide) hf hg (by rw [hfe, hge]) ⟨⟨0, 0⟩, 2⟩
    ⟨⟨3, 4⟩, 3⟩ _ _ centres (f.inScene_shows _ _) (g.inScene_shows _ _)
  exact ⟨fanned, f, g, l, m, hfan, hf, hg, hl, hm, hinter⟩

end Graph
end NodeLink
