import NodeLink.Icon.Place
import NodeLink.Proofs.Drawing.Extents
import NodeLink.Proofs.Number.Doubles

/-!
# Places of icons

A box of any aspect fits into the middle of an area and touches its edges on two sides at least. The area of an
icon is a square whose padded part has its corners inside the circle of the node, so every box in it has.
-/

namespace NodeLink

namespace Box

variable {area : Box ℝ} {padding aspect : ℝ}

def corners (b : Box ℝ) : List (Point ℝ) :=
  [⟨b.x, b.y⟩, ⟨b.x + b.width, b.y⟩, ⟨b.x, b.y + b.height⟩, ⟨b.x + b.width, b.y + b.height⟩]

noncomputable def centre (b : Box ℝ) : Point ℝ :=
  Point.midpoint ⟨b.x, b.y⟩ ⟨b.x + b.width, b.y + b.height⟩

/-- A box of the given aspect in the middle of a padded area, as large as the area allows. -/
structure FitsIn (b area : Box ℝ) (padding aspect : ℝ) : Prop where
  within : (b.inner 0).Within (area.inner padding)
  centred : b.centre = area.centre
  aspect : b.width = aspect * b.height
  wide : 0 < b.width
  high : 0 < b.height
  fills : b.width = area.width - padding * 2 ∨ b.height = area.height - padding * 2

/-- The box of the given size in the middle of an area, as it is found from the padded area's corner. -/
noncomputable def inMiddle (area : Box ℝ) (padding width height : ℝ) : Box ℝ where
  x := area.x + padding + (area.width - padding * (2 : ℕ) - width) / (2 : ℕ)
  y := area.y + padding + (area.height - padding * (2 : ℕ) - height) / (2 : ℕ)
  width := width
  height := height

theorem centre_exact (b : Box ℝ) : b.centre = ⟨b.x + b.width / 2, b.y + b.height / 2⟩ := by
  rw [centre, Point.midpoint_exact, Point.mk.injEq]
  constructor <;> ring

theorem centre_inMiddle (area : Box ℝ) (padding width height : ℝ) :
    (area.inMiddle padding width height).centre = area.centre := by
  simp only [centre_exact, inMiddle, Point.mk.injEq]
  push_cast
  constructor <;> ring

theorem inMiddle_within {width height : ℝ} (hwidth : width ≤ area.width - padding * 2)
    (hheight : height ≤ area.height - padding * 2) :
    ((area.inMiddle padding width height).inner 0).Within (area.inner padding) := by
  constructor <;> simp only [inner, inMiddle] <;> push_cast <;> linarith

theorem holds_corners {b : Box ℝ} (hwidth : 0 ≤ b.width) (hheight : 0 ≤ b.height) :
    ∀ p ∈ b.corners, b.Holds p := by
  intro p hp
  simp only [corners, List.mem_cons, List.not_mem_nil, or_false] at hp
  rcases hp with rfl | rfl | rfl | rfl <;> constructor <;> constructor <;> simp only [inner] <;> linarith

theorem scaledTo_exact (width height aspect : ℝ) :
    scaledTo width height aspect =
      .ok (if aspect < width / height then (height * aspect, height) else (width, width / aspect)) := by
  change (if decide (aspect < width / height) = true then Except.ok (height * aspect, height)
    else .ok (width, width / aspect)) = _
  by_cases h : aspect < width / height
  · rw [if_pos (decide_eq_true h), if_pos h]
  · rw [if_neg (by simpa using h), if_neg h]

theorem isFlat_exact (width height : ℝ) : isFlat width height = .ok (decide (width ≤ 0 ∨ height ≤ 0)) := by
  unfold isFlat
  rw [Scalar.zero_literal]
  change (if decide (width ≤ 0) = true then Except.ok true else .ok (decide (height ≤ 0))) = _
  by_cases h : width ≤ 0 <;> simp [h]

theorem fitted_exact (area : Box ℝ) (hwidth : 0 < area.width - padding * 2) (hheight : 0 < area.height - padding * 2)
    (aspect : ℝ) :
    area.fitted padding aspect =
      .ok (if aspect < (area.width - padding * 2) / (area.height - padding * 2)
        then area.inMiddle padding ((area.height - padding * 2) * aspect) (area.height - padding * 2)
        else area.inMiddle padding (area.width - padding * 2) ((area.width - padding * 2) / aspect)) := by
  have hflat : isFlat (area.width - padding * 2) (area.height - padding * 2) = .ok false := by
    rw [isFlat_exact, decide_eq_false (not_or.mpr ⟨not_le.mpr hwidth, not_le.mpr hheight⟩)]
  unfold fitted
  refine (bind_of_ok (a := area.width - padding * 2) rfl _).trans ?_
  refine (bind_of_ok (a := area.height - padding * 2) rfl _).trans ?_
  refine (bind_of_ok hflat _).trans ?_
  refine (bind_of_ok (scaledTo_exact _ _ aspect) _).trans ?_
  split_ifs <;> rfl

theorem fitted_fits (area : Box ℝ) (hwidth : 0 < area.width - padding * 2) (hheight : 0 < area.height - padding * 2)
    (haspect : 0 < aspect) : ∃ b, area.fitted padding aspect = .ok b ∧ b.FitsIn area padding aspect := by
  refine ⟨_, fitted_exact area hwidth hheight aspect, ?_⟩
  by_cases h : aspect < (area.width - padding * 2) / (area.height - padding * 2)
  · rw [if_pos h]
    have hless : (area.height - padding * 2) * aspect ≤ area.width - padding * 2 := by
      rw [mul_comm]
      exact ((lt_div_iff₀ hheight).mp h).le
    constructor
    · exact inMiddle_within hless le_rfl
    · exact centre_inMiddle area padding _ _
    · exact mul_comm _ _
    · exact mul_pos hheight haspect
    · exact hheight
    · exact Or.inr rfl
  · rw [if_neg h]
    have hless : (area.width - padding * 2) / aspect ≤ area.height - padding * 2 := by
      rw [div_le_iff₀ haspect]
      exact ((div_le_iff₀ hheight).mp (not_lt.mp h)).trans_eq (mul_comm _ _)
    constructor
    · exact inMiddle_within le_rfl hless
    · exact centre_inMiddle area padding _ _
    · exact (mul_div_cancel₀ _ haspect.ne').symm
    · exact hwidth
    · exact div_pos hwidth haspect
    · exact Or.inl rfl

end Box

namespace Icon

variable {d : Disc ℝ} {viewBox : List Char}

/-- Width by height of a view box, and 1 where it has no such sides or one of them is not positive. -/
noncomputable def proportion (viewBox : List Char) : ℝ :=
  (Symbol.sides? viewBox).elim 1 fun sides =>
    if 0 < Binary64.toReal sides.1 ∧ 0 < Binary64.toReal sides.2
      then Binary64.toReal sides.1 / Binary64.toReal sides.2 else 1

theorem aspect_exact (viewBox : List Char) : aspect Binary64.toReal viewBox = .ok (proportion viewBox) := by
  have hone : (1.0 : ℝ) = 1 := by norm_num
  unfold aspect proportion
  cases Symbol.sides? viewBox with
  | none => exact congrArg Except.ok hone
  | some sides =>
    refine (bind_of_ok (Box.isFlat_exact _ _) _).trans ?_
    rw [Option.elim_some]
    by_cases h : 0 < Binary64.toReal sides.1 ∧ 0 < Binary64.toReal sides.2
    · rw [if_pos h, decide_eq_false (by simpa using h)]
      rfl
    · have hflat : Binary64.toReal sides.1 ≤ 0 ∨ Binary64.toReal sides.2 ≤ 0 := by
        simpa only [not_and_or, not_lt] using h
      rw [if_neg h, decide_eq_true hflat]
      exact congrArg Except.ok hone

theorem proportion_pos (viewBox : List Char) : 0 < proportion viewBox := by
  unfold proportion
  cases Symbol.sides? viewBox with
  | none => exact one_pos
  | some sides =>
    rw [Option.elim_some]
    by_cases h : 0 < Binary64.toReal sides.1 ∧ 0 < Binary64.toReal sides.2
    · rw [if_pos h]
      exact div_pos h.1 h.2
    · rw [if_neg h]
      exact one_pos

/-- The square in which the icon of a node stands. -/
noncomputable def site (d : Disc ℝ) : Box ℝ where
  x := d.centre.x - d.radius * 0.8
  y := d.centre.y - d.radius * 0.8
  width := d.radius * 0.8 * (2 : ℕ)
  height := d.radius * 0.8 * (2 : ℕ)

theorem square_exact (d : Disc ℝ) : square d = .ok (site d) := rfl

theorem centre_site (d : Disc ℝ) : (site d).centre = d.centre := by
  have hx : d.centre.x - d.radius * 0.8 + d.radius * 0.8 * (2 : ℕ) / 2 = d.centre.x := by
    push_cast
    ring
  have hy : d.centre.y - d.radius * 0.8 + d.radius * 0.8 * (2 : ℕ) / 2 = d.centre.y := by
    push_cast
    ring
  rw [Box.centre_exact]
  exact congrArg₂ Point.mk hx hy

/-- The padded square of an icon is inside the circle. -/
theorem distance_lt_radius (hd : 0 < d.radius) {p : Point ℝ}
    (h : ((site d).inner (d.radius * 0.1)).Has p) : p.distance d.centre < d.radius := by
  obtain ⟨⟨hleft, hright⟩, htop, hbottom⟩ := h
  simp only [Box.inner, site] at hleft hright htop hbottom
  push_cast at hright hbottom
  have hx : |d.centre.x - p.x| ≤ 0.7 * d.radius := abs_le.mpr ⟨by linarith, by linarith⟩
  have hy : |d.centre.y - p.y| ≤ 0.7 * d.radius := abs_le.mpr ⟨by linarith, by linarith⟩
  rw [Point.distance_exact, Real.sqrt_lt' hd]
  calc (d.centre.x - p.x) ^ 2 + (d.centre.y - p.y) ^ 2
      ≤ (0.7 * d.radius) ^ 2 + (0.7 * d.radius) ^ 2 := add_le_add (sq_le_sq' (abs_le.mp hx).1 (abs_le.mp hx).2)
        (sq_le_sq' (abs_le.mp hy).1 (abs_le.mp hy).2)
    _ = 0.98 * d.radius ^ 2 := by ring
    _ < d.radius ^ 2 := by
      have hsquare : 0 < d.radius ^ 2 := by positivity
      linarith

theorem useBox_fits (hd : 0 < d.radius) (viewBox : List Char) :
    ∃ b, useBox Binary64.toReal d viewBox = .ok b ∧ b.FitsIn (site d) (d.radius * 0.1) (proportion viewBox) := by
  have hroom : 0 < d.radius * 0.8 * (2 : ℕ) - d.radius * 0.1 * 2 := by
    push_cast
    linarith
  obtain ⟨b, hb, hfits⟩ := Box.fitted_fits (site d) hroom hroom (proportion_pos viewBox)
  refine ⟨b, ?_, hfits⟩
  have hbox : symbolBox d (proportion viewBox) = .ok b := (bind_of_ok (square_exact d) _).trans hb
  exact (bind_of_ok (aspect_exact viewBox) _).trans hbox

end Icon

/-- Where there is room, the box that is fitted into an area has its aspect, its middle, and its width or its height.
A symbol has the aspect of its view box, whatever text that is, and lies in the middle of its node with all of its
corners inside the circle. -/
theorem boxes_fit_their_places :
    (∀ (area : Box ℝ) (padding aspect : ℝ), 0 < area.width - padding * 2 → 0 < area.height - padding * 2 →
      0 < aspect → ∃ b, area.fitted padding aspect = .ok b ∧ b.FitsIn area padding aspect) ∧
    ∀ (d : Disc ℝ) (viewBox : List Char), 0 < d.radius →
      (∀ sides, Symbol.sides? viewBox = some sides →
        Binary64.IsFinite sides.1 ∧ Binary64.IsFinite sides.2) →
      ∃ b, Icon.useBox Binary64.toReal d viewBox = .ok b ∧ b.centre = d.centre ∧
        b.width = Icon.proportion viewBox * b.height ∧ 0 < b.height ∧
        ∀ p ∈ b.corners, p.distance d.centre < d.radius := by
  constructor
  · intro area padding aspect hwidth hheight haspect
    exact Box.fitted_fits area hwidth hheight haspect
  · intro d viewBox hd _
    obtain ⟨b, hb, hfits⟩ := Icon.useBox_fits hd viewBox
    refine ⟨b, hb, hfits.centred.trans (Icon.centre_site d), hfits.aspect, hfits.high, ?_⟩
    intro p hp
    exact Icon.distance_lt_radius hd ((Box.holds_corners hfits.wide.le hfits.high.le p hp).mono hfits.within)

/-- An area that a box twice as wide as high fills, and an icon of that aspect. -/
theorem wide_boxes_fit_their_places :
    let area : Box ℝ := ⟨0, 0, 10, 6⟩
    let d : Disc ℝ := ⟨⟨3, 4⟩, 10⟩
    (∃ b, area.fitted 1 2 = .ok b ∧ b.FitsIn area 1 2) ∧
      ∃ b, Icon.useBox Binary64.toReal d "0 0 24 12".toList = .ok b ∧ b.centre = d.centre ∧
        b.width = 2 * b.height ∧ 0 < b.height ∧ ∀ p ∈ b.corners, p.distance d.centre < d.radius := by
  intro area d
  obtain ⟨hfitted, hplaced⟩ := boxes_fit_their_places
  constructor
  · exact hfitted area 1 2 (by norm_num [area]) (by norm_num [area]) two_pos
  · obtain ⟨w, h, hsides, hw, hh⟩ : ∃ w h, Symbol.sides? "0 0 24 12".toList = some (w, h) ∧
        Binary64.view w = .finite false (3 * 2 ^ 51) (-48) ∧ Binary64.view h = .finite false (3 * 2 ^ 51) (-49) :=
      ⟨_, _, rfl, rfl, rfl⟩
    have hwidth : Binary64.toReal w = 24 := by norm_num [Binary64.toReal, hw]
    have hheight : Binary64.toReal h = 12 := by norm_num [Binary64.toReal, hh]
    have hproportion : Icon.proportion "0 0 24 12".toList = 2 := by
      norm_num [Icon.proportion, hsides, hwidth, hheight]
    have hfinite : ∀ sides, Symbol.sides? "0 0 24 12".toList = some sides →
        Binary64.IsFinite sides.1 ∧ Binary64.IsFinite sides.2 := by
      intro sides hs
      rw [hsides] at hs
      cases hs
      exact ⟨⟨_, _, _, hw⟩, _, _, _, hh⟩
    have hd : 0 < d.radius := by norm_num [d]
    rw [← hproportion]
    exact hplaced d _ hd hfinite

end NodeLink
