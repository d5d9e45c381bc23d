import NodeLink.Drawing.Scene
import NodeLink.Proofs.Drawing.Extents
import NodeLink.Proofs.Geometry.Clipping
import NodeLink.Proofs.Graph.Writing
import NodeLink.Svg.Render

/-!
# What the box of a drawing holds

The box of a drawing holds every circle and every straight centreline as a whole. Of a curved one only the
ends and the middle are looked at; the rest of it may leave the space inside the padding by an eighth of the
sides of that space, and so leave the box where the padding is less than that.
-/

namespace NodeLink

open Set

namespace Centreline

/-- The point of a centreline at a parameter. -/
noncomputable def eval (l : Centreline ℝ) (u : ℝ) : Point ℝ :=
  match l.toCurve? with
  | some c => c.eval u
  | none => ⟨(1 - u) * l.start.x + u * l.finish.x, (1 - u) * l.start.y + u * l.finish.y⟩

/-- The points of a centreline that count for the extent. -/
noncomputable def marks (l : Centreline ℝ) : List (Point ℝ) :=
  match l.toCurve? with
  | some c => [l.start, l.finish, c.eval 0.5]
  | none => [l.start, l.finish]

theorem start_mem_marks (l : Centreline ℝ) : l.start ∈ l.marks := by
  unfold marks
  split <;> exact List.mem_cons_self

theorem finish_mem_marks (l : Centreline ℝ) : l.finish ∈ l.marks := by
  unfold marks
  split <;> exact List.mem_cons_of_mem _ List.mem_cons_self

theorem middle_mem_marks {l : Centreline ℝ} (h : l.curved = true) : l.eval 0.5 ∈ l.marks := by
  obtain ⟨start, _ | control, finish⟩ := l
  · cases h
  · simp [marks, eval, toCurve?]

end Centreline

namespace DrawnEdge

theorem markers_exact (d : DrawnEdge ℝ) : d.markers = .ok d.line.marks := by
  unfold markers Centreline.marks
  cases d.line.toCurve? with
  | none => rfl
  | some c => exact bind_of_ok (c.point_exact 0.5) _

theorem addTo_exact (e : Extent ℝ) (d : DrawnEdge ℝ) :
    d.addTo e = (d.line.marks.map (⟨·, d.edge.thickness / 2⟩)).foldlM Extent.addDisc e := by
  unfold addTo
  rw [markers_exact, List.foldlM_map]
  rfl

theorem addTo_takesIn (e : Extent ℝ) (d : DrawnEdge ℝ) :
    e.TakesIn (d.addTo e) (⋃ p ∈ d.line.marks, {Disc.stretch ⟨p, d.edge.thickness / 2⟩}) := by
  rw [addTo_exact, List.foldlM_map]
  exact Extent.TakesIn.foldlM (fun p _ e => e.addDisc_takesIn ⟨p, d.edge.thickness / 2⟩) e

end DrawnEdge

namespace SceneNode

theorem nodeFontSize_exact (radius : ℝ) :
    Caption.nodeFontSize radius = .ok (Scalar.tenth (min 16 (max 5 (radius * 0.3)))) := by
  unfold Caption.nodeFontSize
  simp only [Scalar.greatest_exact]
  change (Scalar.least 16 (max 5 (radius * 0.3)) >>= fun size => .ok (Scalar.tenth size)) = _
  rw [Scalar.least_exact]
  rfl

theorem addCaption_takesIn (e : Extent ℝ) {n : SceneNode ℝ} (h : n.label.IsCaption) :
    e.TakesIn (n.addCaption e) ∅ := by
  unfold addCaption
  rw [nodeFontSize_exact]
  cases hgiven : n.label.isGiven with
  | false => exact .nothing e
  | true =>
    obtain hnull | ⟨s, hs⟩ := h
    · rw [hnull] at hgiven
      cases hgiven
    · rw [hs]
      exact (e.add_takesIn _).mono (empty_subset _)

theorem addTo_takesIn (e : Extent ℝ) {n : SceneNode ℝ} (h : n.label.IsCaption) :
    e.TakesIn (n.addTo e) {n.disc.stretch} :=
  ((e.addDisc_takesIn n.disc).bind fun e' => addCaption_takesIn e' h).mono subset_union_left

end SceneNode

/-! ## How far a quadratic leaves the stretch of its ends and its middle -/

/-- The quadratic through three values at 0, a half and 1 exceeds a bound of them by at most an eighth of
the distance of their bounds. -/
theorem quadratic_le {lo hi a m b u : ℝ} (hu : u ∈ Icc (0 : ℝ) 1) (ha : a ∈ Icc lo hi) (hm : m ∈ Icc lo hi)
    (hb : b ∈ Icc lo hi) :
    (1 - u) * (1 - 2 * u) * a + 4 * u * (1 - u) * m + u * (2 * u - 1) * b ≤ hi + 1 / 8 * (hi - lo) := by
  obtain ⟨h₀, h₁⟩ := hu
  have hmiddle : 4 * u * (1 - u) * m ≤ 4 * u * (1 - u) * hi :=
    mul_le_mul_of_nonneg_left hm.2 (mul_nonneg (by linarith) (by linarith))
  have hspread : 0 ≤ hi - lo := by linarith [hm.1, hm.2]
  -- Of the weights of the two ends one is negative, and no less than `-1/8`.
  rcases le_total u (1 / 2) with first | second
  · have hstart : (1 - u) * (1 - 2 * u) * a ≤ (1 - u) * (1 - 2 * u) * hi :=
      mul_le_mul_of_nonneg_left ha.2 (mul_nonneg (by linarith) (by linarith))
    have hfinish : u * (2 * u - 1) * b ≤ u * (2 * u - 1) * lo :=
      mul_le_mul_of_nonpos_left hb.1 (mul_nonpos_of_nonneg_of_nonpos h₀ (by linarith))
    have hweight : u * (1 - 2 * u) * (hi - lo) ≤ 1 / 8 * (hi - lo) := by
      gcongr
      nlinarith [sq_nonneg (4 * u - 1)]
    linarith
  · have hstart : (1 - u) * (1 - 2 * u) * a ≤ (1 - u) * (1 - 2 * u) * lo :=
      mul_le_mul_of_nonpos_left ha.1 (mul_nonpos_of_nonneg_of_nonpos (by linarith) (by linarith))
    have hfinish : u * (2 * u - 1) * b ≤ u * (2 * u - 1) * hi :=
      mul_le_mul_of_nonneg_left hb.2 (mul_nonneg h₀ (by linarith))
    have hweight : (1 - u) * (2 * u - 1) * (hi - lo) ≤ 1 / 8 * (hi - lo) := by
      gcongr
      nlinarith [sq_nonneg (4 * u - 3)]
    linarith

theorem quadratic_mem {lo hi a m b u : ℝ} (hu : u ∈ Icc (0 : ℝ) 1) (ha : a ∈ Icc lo hi) (hm : m ∈ Icc lo hi)
    (hb : b ∈ Icc lo hi) :
    (1 - u) * (1 - 2 * u) * a + 4 * u * (1 - u) * m + u * (2 * u - 1) * b ∈
      Icc (lo - 1 / 8 * (hi - lo)) (hi + 1 / 8 * (hi - lo)) := by
  have hneg {x : ℝ} (hx : x ∈ Icc lo hi) : -x ∈ Icc (-hi) (-lo) := ⟨neg_le_neg hx.2, neg_le_neg hx.1⟩
  have hlow := quadratic_le hu (hneg ha) (hneg hm) (hneg hb)
  exact ⟨by linarith, quadratic_le hu ha hm hb⟩

namespace Centreline

theorem has_eval_straight {l : Centreline ℝ} {s : Stretch ℝ} (straight : l.curved = false)
    (h : ∀ p ∈ l.marks, s.Has p) {u : ℝ} (hu : u ∈ Icc (0 : ℝ) 1) : s.Has (l.eval u) := by
  have hstart := h _ l.start_mem_marks
  have hfinish := h _ l.finish_mem_marks
  obtain ⟨start, _ | control, finish⟩ := l
  · have between {lo hi a b : ℝ} (ha : a ∈ Icc lo hi) (hb : b ∈ Icc lo hi) :
        (1 - u) * a + u * b ∈ Icc lo hi :=
      convex_Icc lo hi ha hb (by linarith [hu.2]) hu.1 (by ring)
    exact ⟨between hstart.x hfinish.x, between hstart.y hfinish.y⟩
  · cases straight

/-- A curved centreline leaves a stretch with its ends and its middle by at most an eighth of its sides. -/
theorem has_eval_curved {l : Centreline ℝ} {s : Stretch ℝ} (curved : l.curved = true)
    (h : ∀ p ∈ l.marks, s.Has p) {u : ℝ} (hu : u ∈ Icc (0 : ℝ) 1) : (s.widened (1 / 8)).Has (l.eval u) := by
  have hstart := h _ l.start_mem_marks
  have hfinish := h _ l.finish_mem_marks
  have hmiddle := h _ (l.middle_mem_marks curved)
  obtain ⟨start, _ | control, finish⟩ := l
  · cases curved
  · let c : Curve ℝ := ⟨start, control, finish⟩
    have hx : (c.eval u).x =
        (1 - u) * (1 - 2 * u) * start.x + 4 * u * (1 - u) * (c.eval 0.5).x + u * (2 * u - 1) * finish.x := by
      simp only [c, Curve.eval]
      ring
    have hy : (c.eval u).y =
        (1 - u) * (1 - 2 * u) * start.y + 4 * u * (1 - u) * (c.eval 0.5).y + u * (2 * u - 1) * finish.y := by
      simp only [c, Curve.eval]
      ring
    exact ⟨hx ▸ quadratic_mem hu hstart.x hmiddle.x hfinish.x,
      hy ▸ quadratic_mem hu hstart.y hmiddle.y hfinish.y⟩

end Centreline

namespace SceneEdge

theorem isCurved_succeeds (style : Style ℝ) (e : SceneEdge ℝ) : ∃ curved, e.isCurved style = .ok curved := by
  unfold isCurved
  split
  · exact ⟨true, rfl⟩
  · exact ⟨_, rfl⟩

theorem line?_succeeds (style : Style ℝ) (e : SceneEdge ℝ) : ∃ line?, e.line? style = .ok line? :=
  bind_succeeds (isCurved_succeeds style e) fun curved _ =>
    Centreline.clipped?_succeeds e.source e.target curved e.curvature

end SceneEdge

namespace Scene

section
variable {α : Type} [Scalar α]

/-- The box around a scene whose edges are drawn, and around some more discs. -/
def boxWith (style : Style α) (s : Scene α) (drawn : List (DrawnEdge α)) (discs : List (Disc α)) :
    Except Fault (Box α) := do
  (← discs.foldlM Extent.addDisc (← s.extent drawn)).box style.padding

end

theorem drawn_succeeds (style : Style ℝ) (s : Scene ℝ) :
    ∃ edges, drawn (s.clipped style) = .ok edges ∧ ∀ d ∈ edges, d.edge ∈ s.edges := by
  have hclipped : ∀ c ∈ s.clipped style, ∃ d, c.drawn? = .ok d := by
    intro c hc
    obtain ⟨e, -, rfl⟩ := List.mem_map.mp hc
    obtain ⟨line?, hline⟩ := e.line?_succeeds style
    exact bind_succeeds ⟨line?, hline⟩ fun _ _ => ⟨_, rfl⟩
  obtain ⟨found, hfound⟩ := mapM_succeeds hclipped
  refine ⟨found.filterMap id, by unfold drawn; rw [hfound]; rfl, fun d hd => ?_⟩
  obtain ⟨d?, hmem, rfl⟩ := List.mem_filterMap.mp hd
  obtain ⟨c, hc, hd⟩ := exists_of_forall₂ (mapM_eq_ok hfound) hmem
  obtain ⟨e, he, rfl⟩ := List.mem_map.mp hc
  obtain ⟨line?, -, hline⟩ := bind_eq_ok hd
  obtain ⟨line, -, hline⟩ := Option.map_eq_some_iff.mp (Except.ok.inj hline)
  exact hline ▸ he

theorem extent_takesIn {s : Scene ℝ} (captions : ∀ n ∈ s.nodes, n.label.IsCaption)
    (drawn : List (DrawnEdge ℝ)) :
    Extent.TakesIn {} (s.extent drawn)
      ((⋃ n ∈ s.nodes, {n.disc.stretch}) ∪
        ⋃ d ∈ drawn, ⋃ p ∈ d.line.marks, {Disc.stretch ⟨p, d.edge.thickness / 2⟩}) :=
  (Extent.TakesIn.foldlM (fun n hn e => n.addTo_takesIn e (captions n hn)) {}).bind fun e =>
    Extent.TakesIn.foldlM (fun d _ e => d.addTo_takesIn e) e

theorem has_of_within_mark {p : Point ℝ} {half : ℝ} (h : 0 ≤ half) {s : Stretch ℝ}
    (hs : (Disc.stretch ⟨p, half⟩).Within s) : s.Has p :=
  (Disc.has_stretch (d := ⟨p, half⟩) (by simpa [Point.distance_exact] using h)).mono hs

/-- The box of a drawing holds all its circles and straight centrelines, whatever captions it makes room for
besides. A curved centreline leaves the space inside the padding by at most an eighth of its sides. -/
theorem drawings_stay_in_their_box {style : Style ℝ} {s : Scene ℝ} (padding : 0 ≤ style.padding)
    (captions : ∀ n ∈ s.nodes, n.label.IsCaption) (thickness : ∀ e ∈ s.edges, 0 ≤ e.thickness) :
    ∃ edges, drawn (s.clipped style) = .ok edges ∧ ∀ discs, ∃ box, s.boxWith style edges discs = .ok box ∧
      (discs = [] → s.baseBox style = .ok box) ∧
      (∀ n ∈ s.nodes, ∀ p, p.distance n.disc.centre ≤ n.disc.radius → box.Holds p) ∧
      ∀ d ∈ edges, ∀ u ∈ Icc (0 : ℝ) 1,
        (d.line.curved = false → box.Holds (d.line.eval u)) ∧
        (d.line.curved = true → ((box.inner style.padding).widened (1 / 8)).Has (d.line.eval u)) := by
  obtain ⟨edges, hdrawn, hmem⟩ := drawn_succeeds style s
  refine ⟨edges, hdrawn, fun discs => ?_⟩
  obtain ⟨e, hextent, -, hcovers⟩ := (extent_takesIn captions edges).bind fun e =>
    Extent.TakesIn.foldlM (fun d (_ : d ∈ discs) e => e.addDisc_takesIn d) e
  obtain ⟨box, hbox, hinner⟩ := e.box_covers style.padding
  have hnode : ∀ n ∈ s.nodes, n.disc.stretch.Within (box.inner style.padding) := fun n hn =>
    hinner _ (hcovers _ (.inl (.inl (mem_biUnion hn rfl))))
  have hmarks : ∀ d ∈ edges, ∀ p ∈ d.line.marks, (box.inner style.padding).Has p := fun d hd p hp =>
    has_of_within_mark (div_nonneg (thickness _ (hmem d hd)) zero_le_two)
      (hinner _ (hcovers _ (.inl (.inr (mem_biUnion hd (mem_biUnion hp rfl))))))
  obtain ⟨e₀, hbase, hmore⟩ := bind_eq_ok hextent
  refine ⟨box, ?_, ?_, ?_, ?_⟩
  · unfold boxWith
    rw [hbase]
    change (discs.foldlM Extent.addDisc e₀ >>= _) = _
    rw [hmore]
    exact hbox
  · rintro rfl
    cases hmore
    unfold baseBox
    rw [hdrawn]
    change (s.extent edges >>= _) = _
    rw [hbase]
    exact hbox
  · exact fun n hn p hp => Box.holds_of_inner padding ((Disc.has_stretch hp).mono (hnode n hn))
  · exact fun d hd u hu => ⟨fun straight =>
      Box.holds_of_inner padding (Centreline.has_eval_straight straight (hmarks d hd) hu),
      fun curved => Centreline.has_eval_curved curved (hmarks d hd) hu⟩

/-! ## A long edge that rises a little -/

def lowNode : SceneNode ℝ := ⟨⟨⟨0, 0⟩, (10 : ℕ)⟩, .text "A", .null, .null, .null⟩
def highNode : SceneNode ℝ := ⟨⟨⟨(3230 : ℕ), (360 : ℕ)⟩, (10 : ℕ)⟩, .text "B", .null, .null, .null⟩

def rising : SceneEdge ℝ where
  index := 0
  id := .null
  source := lowNode.disc
  target := highNode.disc
  kind := .curved
  thickness := 1
  curvature := 0
  label := .null
  color := .null

/-- A curved edge between two nodes without captions. -/
def tilted : Scene ℝ := ⟨[lowNode, highNode], [rising]⟩

/-- The options as they are by default. -/
noncomputable def usual : Style ℝ where
  width := some (800 : ℕ)
  height := some (600 : ℕ)
  padding := (20 : ℕ)
  background := .text "transparent"
  embedIcons := true
  optimize := true
  curvedEdges := false
  edgeColor := .null
  minFont := (4 : ℕ)
  maxFont := (14 : ℕ)
  fillRatio := 0.9
  hideBelow := (3 : ℕ)
  referenceSize := (800 : ℕ)

theorem tilted_stays_near_its_box :
    ∃ edges, drawn (tilted.clipped usual) = .ok edges ∧
      ∀ discs, ∃ box, tilted.boxWith usual edges discs = .ok box ∧
        (discs = [] → tilted.baseBox usual = .ok box) ∧
        (∀ n ∈ tilted.nodes, ∀ p, p.distance n.disc.centre ≤ n.disc.radius → box.Holds p) ∧
        ∀ d ∈ edges, ∀ u ∈ Icc (0 : ℝ) 1,
          (d.line.curved = false → box.Holds (d.line.eval u)) ∧
          (d.line.curved = true → ((box.inner usual.padding).widened (1 / 8)).Has (d.line.eval u)) :=
  drawings_stay_in_their_box (by norm_num [usual])
    (List.forall_mem_cons.mpr ⟨.inl rfl, List.forall_mem_cons.mpr ⟨.inl rfl, nofun⟩⟩)
    (List.forall_mem_cons.mpr ⟨zero_le_one, nofun⟩)

theorem low_distance_high : lowNode.disc.centre.distance highNode.disc.centre = 3250 := by
  rw [Point.distance_exact]
  rw [Real.sqrt_eq_iff_eq_sq (by positivity) (by norm_num)]
  norm_num [lowNode, highNode]

/-- The whole curve of the edge, up to the centres. -/
noncomputable def risingBow : Curve ℝ := .bow lowNode.disc.centre highNode.disc.centre (bulge 0)

theorem risingBow_y (t : ℝ) : (risingBow.eval t).y = 360 * t + 775.2 * (t * (1 - t)) := by
  simp only [risingBow, Curve.bow, Curve.eval, bulge, lowNode, highNode]
  ring

/-- The edge is drawn between parameters close to 0 and 1. -/
theorem drawn_tilted :
    ∃ t₀ ∈ Icc (0 : ℝ) 0.01, ∃ t₁ ∈ Icc (0.99 : ℝ) 1,
      drawn (tilted.clipped usual) = .ok [⟨rising, (risingBow.part t₀ t₁).toCentreline⟩] := by
  have hd := low_distance_high
  obtain ⟨t₀, ht₀, t₁, ht₁, hbent, hstart, hfinish⟩ :=
    Centreline.bent_meets_circles (by norm_num [lowNode] : 0 ≤ lowNode.disc.radius)
      (by norm_num [highNode] : 0 ≤ highNode.disc.radius) (by rw [hd]; norm_num [lowNode, highNode])
      (by rw [hd]; norm_num) (by norm_num [bulge] : bulge 0 ^ 2 ≤ 2)
  rw [hd] at hstart hfinish
  have hlow : risingBow.away ⟨lowNode.disc.centre, 10⟩ t₀ - 10 ≤ 3250 / 1000 := (abs_le.mp hstart).2
  have hhigh : risingBow.away ⟨highNode.disc.centre, 10⟩ t₁ - 10 ≤ 3250 / 1000 := (abs_le.mp hfinish).2
  rw [risingBow, Curve.away_start, hd] at hlow
  rw [risingBow, Curve.away_finish, hd] at hhigh
  refine ⟨t₀, ⟨ht₀.1, ?_⟩, t₁, ⟨?_, ht₁.2⟩, ?_⟩
  · linarith [Curve.le_sqrt_rise (bulge 0) t₀]
  · linarith [Curve.le_sqrt_rise (bulge 0) (1 - t₁)]
  · have hline : rising.line? usual = .ok (some (risingBow.part t₀ t₁).toCentreline) := by
      change Centreline.clipped? lowNode.disc highNode.disc true 0 = _
      rw [Centreline.clipped?_exact (by rw [hd]; norm_num) (by rw [hd]; norm_num [lowNode, highNode]),
        if_pos rfl, hbent]
      rfl
    change drawn [⟨rising, rising.line? usual⟩] = _
    rw [hline]
    rfl

theorem extent_tilted (c : Curve ℝ) :
    tilted.extent [⟨rising, c.toCentreline⟩] =
      [lowNode.disc, highNode.disc, ⟨c.start, 1 / 2⟩, ⟨c.finish, 1 / 2⟩, ⟨c.eval 0.5, 1 / 2⟩].foldlM
        Extent.addDisc {} := by
  change (do DrawnEdge.addTo (← [lowNode, highNode].foldlM SceneNode.addTo {}) ⟨rising, c.toCentreline⟩) = _
  simp only [DrawnEdge.addTo_exact]
  rfl

theorem baseBox_tilted {t₀ t₁ : ℝ} (h₀ : t₀ ∈ Icc (0 : ℝ) 0.01) (h₁ : t₁ ∈ Icc (0.99 : ℝ) 1)
    (hdrawn : drawn (tilted.clipped usual) = .ok [⟨rising, (risingBow.part t₀ t₁).toCentreline⟩]) :
    ∃ box, tilted.baseBox usual = .ok box ∧ box.y + box.height ≤ 400 := by
  have hstart : ((risingBow.part t₀ t₁).start).y ≤ 15 := by
    change (risingBow.eval t₀).y ≤ 15
    rw [risingBow_y]
    nlinarith [h₀.1, h₀.2]
  have hfinish : ((risingBow.part t₀ t₁).finish).y ≤ 370 := by
    change (risingBow.eval t₁).y ≤ 370
    rw [risingBow_y]
    nlinarith [h₁.1, h₁.2]
  have hmiddle : ((risingBow.part t₀ t₁).eval 0.5).y ≤ 377 := by
    rw [Curve.eval_part, risingBow_y]
    nlinarith [h₀.1, h₀.2, h₁.1, h₁.2, sq_nonneg (t₀ + 0.5 * (t₁ - t₀) - 0.5)]
  have hextent := extent_tilted (risingBow.part t₀ t₁)
  rw [Extent.foldlM_addDisc] at hextent
  generalize he : List.foldl _ _ _ = e at hextent
  have hlowest : e.maxY.getD (-0) ≤ 380 := by
    rw [← he]
    simp only [List.foldl_cons, List.foldl_nil, Extent.withStretch, Disc.stretch, Option.elim_some,
      Option.elim_none, Option.getD_some, max_le_iff, Nat.cast_ofNat, lowNode, highNode]
    and_intros <;> linarith
  refine ⟨e.padded 20, ?_, ?_⟩
  · unfold baseBox
    rw [hdrawn]
    change (tilted.extent [⟨rising, (risingBow.part t₀ t₁).toCentreline⟩] >>= Extent.box 20) = _
    rw [hextent]
    exact Extent.box_exact 20 (by rw [← he]; rfl)
  · rw [Extent.padded_bottom]
    linarith

/-- The curve of a tilted edge is highest beyond its middle, and may leave the box there. -/
theorem tilted_edge_leaves_its_box :
    ∃ edges box, drawn (tilted.clipped usual) = .ok edges ∧ tilted.baseBox usual = .ok box ∧
      ∃ d ∈ edges, ∃ u ∈ Icc (0 : ℝ) 1, ¬ box.Holds (d.line.eval u) := by
  obtain ⟨t₀, h₀, t₁, h₁, hdrawn⟩ := drawn_tilted
  obtain ⟨box, hbox, hbottom⟩ := baseBox_tilted h₀ h₁ hdrawn
  have hlength : 0 < t₁ - t₀ := by linarith [h₀.2, h₁.1]
  -- The parameter of the part at which the whole curve is at 0.73.
  let u := (0.73 - t₀) / (t₁ - t₀)
  have hpoint : (risingBow.part t₀ t₁).toCentreline.eval u = risingBow.eval 0.73 := by
    change (risingBow.part t₀ t₁).eval u = _
    rw [Curve.eval_part, div_mul_cancel₀ _ hlength.ne', add_sub_cancel]
  refine ⟨_, box, hdrawn, hbox, _, List.mem_singleton_self _, u, ⟨?_, ?_⟩, fun held => ?_⟩
  · exact div_nonneg (by linarith [h₀.2]) hlength.le
  · exact div_le_one_of_le₀ (by linarith [h₁.1]) hlength.le
  · have hlow := held.y.2
    simp only [hpoint, risingBow_y, Box.inner] at hlow
    norm_num at hlow
    linarith

end Scene

/-- The box of a document is that of its scene and of the discs around the captions of its edges. -/
theorem Svg.frame_box {style : Style Value} {renderers : Svg.Renderers} {s : Scene Value} {framed : Svg.Framed}
    {edges : List (DrawnEdge Value)} (hdrawn : Scene.drawn (s.clipped style) = .ok edges)
    (h : Svg.frame style renderers s (s.clipped style) = .ok framed) :
    s.boxWith style edges (framed.edges.captions.map (·.around)) = .ok framed.box := by
  obtain ⟨edges', hedges', h⟩ := bind_eq_ok h
  cases hdrawn.symm.trans hedges'
  obtain ⟨extent, hextent, h⟩ := bind_eq_ok h
  obtain ⟨base, -, h⟩ := bind_eq_ok h
  obtain ⟨scale, -, h⟩ := bind_eq_ok h
  obtain ⟨layer, -, h⟩ := bind_eq_ok h
  obtain ⟨whole, hwhole, h⟩ := bind_eq_ok h
  obtain ⟨box, hbox, h⟩ := bind_eq_ok h
  cases h
  refine (bind_of_ok hextent _).trans ?_
  exact (bind_of_ok hwhole _).trans hbox

end NodeLink
