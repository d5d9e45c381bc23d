import NodeLink.Drawing.Caption
import NodeLink.Proofs.Geometry.Exact

/-!
# Font sizes of captions

A caption is left out where the size that fits would be too small to read, and only a size that is not left out
is raised to the least one. Both go the same way: less room gives no larger size, and a caption that is left out
does not come back with it.
-/

namespace NodeLink

variable {style : Style ℝ} {text text' : String} {count count' : ℕ} {width width' height height' scale scale' : ℝ}

/-- None of the numbers that captions go by is negative. -/
structure Style.HasFonts (style : Style ℝ) : Prop where
  minFont : 0 ≤ style.minFont
  maxFont : 0 ≤ style.maxFont
  fillRatio : 0 ≤ style.fillRatio
  hideBelow : 0 ≤ style.hideBelow

namespace Caption

/-- The largest size at which so many characters fit into a box. -/
noncomputable def fitting (style : Style ℝ) (count : ℕ) (width height : ℝ) : ℝ :=
  min (min (width * style.fillRatio / (count * 0.6)) (height * style.fillRatio)) style.maxFont

/-- There is no room, or what fits cannot be read. -/
def IsHidden (style : Style ℝ) (count : ℕ) (width height scale : ℝ) : Prop :=
  width ≤ 0 ∨ height ≤ 0 ∨ fitting style count width height * scale < style.hideBelow

theorem fittingSize_exact (style : Style ℝ) (text : String) (width height : ℝ) :
    fittingSize style (.text text) width height = .ok (fitting style text.length width height) := by
  refine (bind_of_ok (a := width * style.fillRatio) rfl _).trans ?_
  refine (bind_of_ok (a := text.length) rfl _).trans ?_
  refine (bind_of_ok (a := width * style.fillRatio / (text.length * 0.6)) rfl _).trans ?_
  refine (bind_of_ok (a := height * style.fillRatio) rfl _).trans ?_
  refine (bind_of_ok (Scalar.least_exact _ _) _).trans ?_
  exact Scalar.least_exact _ _

theorem hasNoPlace_exact (h : text ≠ "") (width height : ℝ) :
    hasNoPlace (.text text) width height = .ok (decide (width ≤ 0 ∨ height ≤ 0)) := by
  have hgiven : (Json.text text).isGiven = true := by simpa [Json.isGiven] using h
  unfold hasNoPlace
  rw [hgiven, Scalar.zero_literal]
  change (if decide (width ≤ 0) = true then Except.ok true else .ok (decide (height ≤ 0))) = _
  by_cases hw : width ≤ 0 <;> simp [hw]

theorem fontSize_hidden (h : text ≠ "") (hidden : IsHidden style text.length width height scale) :
    fontSize style (.text text) width height scale = .ok 0 := by
  have hzero : (0.0 : ℝ) = 0 := by norm_num
  refine (bind_of_ok (hasNoPlace_exact h width height) _).trans ?_
  by_cases hplace : width ≤ 0 ∨ height ≤ 0
  · rw [if_pos (decide_eq_true hplace)]
    exact congrArg Except.ok hzero
  · have hsmall : fitting style text.length width height * scale < style.hideBelow := by
      rcases hidden with hw | hh | hs
      · exact absurd (Or.inl hw) hplace
      · exact absurd (Or.inr hh) hplace
      · exact hs
    rw [if_neg (by simpa using hplace)]
    refine (bind_of_ok (fittingSize_exact style text width height) _).trans ?_
    change (if decide (_ * scale < style.hideBelow) = true then Except.ok (0.0 : ℝ) else _) = _
    rw [if_pos (decide_eq_true hsmall), hzero]

theorem fontSize_shown (h : text ≠ "") (shown : ¬ IsHidden style text.length width height scale) :
    fontSize style (.text text) width height scale =
      .ok (max (fitting style text.length width height) style.minFont) := by
  obtain ⟨hw, hh, hs⟩ : ¬ width ≤ 0 ∧ ¬ height ≤ 0 ∧ _ := by simpa only [IsHidden, not_or] using shown
  refine (bind_of_ok (hasNoPlace_exact h width height) _).trans ?_
  rw [if_neg (by simpa using ⟨not_le.mp hw, not_le.mp hh⟩)]
  refine (bind_of_ok (fittingSize_exact style text width height) _).trans ?_
  change (if decide (_ * scale < style.hideBelow) = true then Except.ok (0.0 : ℝ) else _) = _
  rw [if_neg (by simpa using hs), Scalar.greatest_exact]

theorem fitting_nonneg (hstyle : style.HasFonts) (hwidth : 0 ≤ width) (hheight : 0 ≤ height) (count : ℕ) :
    0 ≤ fitting style count width height := by
  have hratio := hstyle.fillRatio
  refine le_min (le_min ?_ ?_) hstyle.maxFont <;> positivity

theorem fitting_le_maxFont (style : Style ℝ) (count : ℕ) (width height : ℝ) :
    fitting style count width height ≤ style.maxFont := min_le_right _ _

theorem fitting_antitone (hstyle : style.HasFonts) (hcount : 0 < count) (longer : count ≤ count')
    (hwidth : 0 ≤ width') (narrower : width' ≤ width) (lower : height' ≤ height) :
    fitting style count' width' height' ≤ fitting style count width height := by
  have hratio := hstyle.fillRatio
  have hwide : 0 ≤ width := hwidth.trans narrower
  have hchars : (0 : ℝ) < count := Nat.cast_pos.mpr hcount
  have hbyWidth : width' * style.fillRatio / (count' * 0.6) ≤ width * style.fillRatio / (count * 0.6) := by
    gcongr
  have hbyHeight : height' * style.fillRatio ≤ height * style.fillRatio := by gcongr
  exact min_le_min (min_le_min hbyWidth hbyHeight) le_rfl

theorem IsHidden.tighter (hidden : IsHidden style count width height scale) (hstyle : style.HasFonts)
    (hcount : 0 < count) (hscale : 0 ≤ scale) (longer : count ≤ count') (narrower : width' ≤ width)
    (lower : height' ≤ height) (smaller : scale' ≤ scale) : IsHidden style count' width' height' scale' := by
  by_cases hplace : width' ≤ 0 ∨ height' ≤ 0
  · exact hplace.imp_right Or.inl
  obtain ⟨hw, hh⟩ := not_or.mp hplace
  rcases hidden with hwidth | hheight | hsmall
  · exact absurd (narrower.trans hwidth) hw
  · exact absurd (lower.trans hheight) hh
  · refine Or.inr (Or.inr (lt_of_le_of_lt ?_ hsmall))
    have hfits := fitting_antitone hstyle hcount longer (not_le.mp hw).le narrower lower
    have hnonneg := fitting_nonneg hstyle (not_le.mp hw).le (not_le.mp hh).le count'
    calc fitting style count' width' height' * scale'
      _ ≤ fitting style count' width' height' * scale := mul_le_mul_of_nonneg_left smaller hnonneg
      _ ≤ fitting style count width height * scale := mul_le_mul_of_nonneg_right hfits hscale

/-- What is known of the size of a caption. -/
structure IsSize (style : Style ℝ) (scale size : ℝ) : Prop where
  nonneg : 0 ≤ size
  within : size = 0 ∨ style.minFont ≤ size ∧ size ≤ max style.minFont style.maxFont
  legible : 0 < size → style.hideBelow ≤ size * scale

theorem isSize_zero (style : Style ℝ) (scale : ℝ) : IsSize style scale 0 :=
  ⟨le_rfl, Or.inl rfl, fun h => absurd h (lt_irrefl 0)⟩

theorem isSize_shown (hstyle : style.HasFonts) (hscale : 0 ≤ scale)
    (shown : ¬ IsHidden style count width height scale) :
    IsSize style scale (max (fitting style count width height) style.minFont) := by
  have hlegible : style.hideBelow ≤ fitting style count width height * scale :=
    not_lt.mp fun hsmall => shown (Or.inr (Or.inr hsmall))
  refine ⟨hstyle.minFont.trans (le_max_right _ _), Or.inr ⟨le_max_right _ _, ?_⟩, fun _ => ?_⟩
  · exact max_le ((fitting_le_maxFont style count width height).trans (le_max_right _ _)) (le_max_left _ _)
  · exact hlegible.trans (mul_le_mul_of_nonneg_right (le_max_left _ _) hscale)

theorem fontSize_isSize (hstyle : style.HasFonts) (h : text ≠ "") (hscale : 0 ≤ scale) (width height : ℝ) :
    ∃ size, fontSize style (.text text) width height scale = .ok size ∧ IsSize style scale size := by
  by_cases hidden : IsHidden style text.length width height scale
  · exact ⟨0, fontSize_hidden h hidden, isSize_zero style scale⟩
  · exact ⟨_, fontSize_shown h hidden, isSize_shown hstyle hscale hidden⟩

theorem length_pos (h : text ≠ "") : 0 < text.length :=
  Nat.pos_of_ne_zero fun hzero => h (String.length_eq_zero_iff.mp hzero)

theorem fontSize_antitone (hstyle : style.HasFonts) (h : text ≠ "") (hscale : 0 ≤ scale)
    (longer : text.length ≤ text'.length) (narrower : width' ≤ width) (lower : height' ≤ height)
    (smaller : scale' ≤ scale) {size : ℝ} (hsize : fontSize style (.text text) width height scale = .ok size) :
    ∃ size', fontSize style (.text text') width' height' scale' = .ok size' ∧ 0 ≤ size' ∧ size' ≤ size := by
  have hcount := length_pos h
  have h' : text' ≠ "" := by
    rintro rfl
    exact absurd longer (not_le.mpr hcount)
  by_cases hidden' : IsHidden style text'.length width' height' scale'
  · refine ⟨0, fontSize_hidden h' hidden', le_rfl, ?_⟩
    obtain ⟨size₁, hsize₁, hknown⟩ := fontSize_isSize hstyle h hscale width height
    rw [hsize] at hsize₁
    cases hsize₁
    exact hknown.nonneg
  · have shown : ¬ IsHidden style text.length width height scale := fun hidden =>
      hidden' (hidden.tighter hstyle hcount hscale longer narrower lower smaller)
    rw [fontSize_shown h shown] at hsize
    cases hsize
    have hwidth' : 0 ≤ width' := le_of_not_ge fun hflat => hidden' (Or.inl hflat)
    refine ⟨_, fontSize_shown h' hidden', hstyle.minFont.trans (le_max_right _ _), ?_⟩
    exact max_le_max (fitting_antitone hstyle hcount longer hwidth' narrower lower) le_rfl

/-- A caption is left out or of a size within the bounds that can be read; and with a longer text, in a smaller
box or at a smaller scale it is no larger, so that one that is left out stays left out. -/
theorem font_sizes_go_with_room (hstyle : style.HasFonts) (h : text ≠ "") (hscale : 0 ≤ scale) (width height : ℝ) :
    ∃ size, fontSize style (.text text) width height scale = .ok size ∧
      (size = 0 ∨ style.minFont ≤ size ∧ size ≤ max style.minFont style.maxFont) ∧
      (0 < size → style.hideBelow ≤ size * scale) ∧
      ∀ {text' : String} {width' height' scale' : ℝ}, text.length ≤ text'.length → width' ≤ width →
        height' ≤ height → scale' ≤ scale →
          ∃ size', fontSize style (.text text') width' height' scale' = .ok size' ∧ size' ≤ size ∧
            (size = 0 → size' = 0) := by
  obtain ⟨size, hsize, hknown⟩ := fontSize_isSize hstyle h hscale width height
  refine ⟨size, hsize, hknown.within, hknown.legible, ?_⟩
  intro text' width' height' scale' longer narrower lower smaller
  obtain ⟨size', hsize', hnonneg, hle⟩ := fontSize_antitone hstyle h hscale longer narrower lower smaller hsize
  exact ⟨size', hsize', hle, fun hzero => (hle.trans_eq hzero).antisymm hnonneg⟩

/-- A text whose size is raised to the least one, and a longer text in a lower box. -/
theorem raised_caption_goes_with_room :
    let style : Style ℝ := ⟨none, none, 0, .null, false, false, false, .null, 4, 14, 0.9, 3, 800⟩
    style.HasFonts ∧ "hello" ≠ "" ∧ (0 : ℝ) ≤ 1 ∧ fontSize style (.text "hello") 100 4 1 = .ok 4 ∧
      "hello".length ≤ "hello!".length ∧ (3 : ℝ) ≤ 4 ∧
      ∃ size, fontSize style (.text "hello!") 100 3 1 = .ok size ∧ size ≤ 4 := by
  intro style
  have hstyle : style.HasFonts := by constructor <;> norm_num [style]
  have hshown : fontSize style (.text "hello") 100 4 1 = .ok 4 := by
    have hlength : "hello".length = 5 := rfl
    rw [fontSize_shown (by decide)]
    · norm_num [fitting, style, hlength]
    · norm_num [IsHidden, fitting, style, hlength]
  have hlonger : "hello".length ≤ "hello!".length := by decide
  have hlower : (3 : ℝ) ≤ 4 := by norm_num
  obtain ⟨size, hsize, -, -, hless⟩ :=
    @font_sizes_go_with_room style "hello" 1 hstyle (by decide) zero_le_one 100 4
  cases hshown.symm.trans hsize
  obtain ⟨size', hsize', hle, -⟩ := @hless "hello!" 100 3 1 hlonger le_rfl hlower le_rfl
  exact ⟨hstyle, by decide, zero_le_one, hshown, hlonger, hlower, size', hsize', hle⟩

/-! ### Captions of edges -/

/-- The height of the strip beside an edge. -/
noncomputable def strip (thickness : ℝ) : ℝ := max (thickness * (2 : ℕ) + (12 : ℕ)) (10 : ℕ)

theorem band_exact (thickness : ℝ) : band thickness = .ok (strip thickness) := Scalar.greatest_exact _ _

theorem strip_mono {thickness thickness' : ℝ} (h : thickness' ≤ thickness) : strip thickness' ≤ strip thickness := by
  unfold strip
  gcongr

/-- The distance between the ends of a line. -/
noncomputable def reachOf (c : Centreline ℝ) : ℝ := Scalar.hypot (c.finish.x - c.start.x) (c.finish.y - c.start.y)

/-- The caption of an edge is left out exactly where its size is not positive. -/
theorem place?_eq_none_iff (h : text ≠ "") {c : Centreline ℝ} {thickness size : ℝ}
    (hsize : fontSize style (.text text) (reachOf c) (strip thickness) scale = .ok size) :
    place? style c (.text text) thickness scale = .ok none ↔ size ≤ 0 := by
  have hgiven : ¬ (!(Json.text text).isGiven) = true := by simpa [Json.isGiven] using h
  have hle : Scalar.le size 0 = .ok (decide (size ≤ 0)) := rfl
  unfold place?
  rw [if_neg hgiven, Scalar.zero_literal]
  constructor
  -- each step of placing is known, and all that comes after the size gives a place
  · intro hnone
    obtain ⟨chord, hchord, hnone⟩ := bind_eq_ok hnone
    cases hchord
    obtain ⟨room, hroom, hnone⟩ := bind_eq_ok hnone
    cases (band_exact thickness).symm.trans hroom
    obtain ⟨size', hsize', hnone⟩ := bind_eq_ok hnone
    cases hsize.symm.trans hsize'
    obtain ⟨flat, hflat, hnone⟩ := bind_eq_ok hnone
    cases hle.symm.trans hflat
    by_contra hpos
    rw [if_neg (by simpa using hpos)] at hnone
    cases hcurve : c.toCurve? with
    | some curve =>
      rw [hcurve] at hnone
      obtain ⟨placed, -, hplaced⟩ := bind_eq_ok hnone
      cases hplaced
    | none =>
      rw [hcurve] at hnone
      obtain ⟨placed, -, hplaced⟩ := bind_eq_ok hnone
      cases hplaced
  · intro hflat
    refine (bind_of_ok (a := reachOf c) rfl _).trans ?_
    refine (bind_of_ok (band_exact thickness) _).trans ?_
    refine (bind_of_ok hsize _).trans ?_
    refine (bind_of_ok hle _).trans ?_
    rw [if_pos (decide_eq_true hflat)]
    rfl

/-- The caption of an edge that is left out stays left out where it is longer, and where the edge is shorter and
thinner or drawn at a smaller scale. -/
theorem place?_stays_none (hstyle : style.HasFonts) (h : text ≠ "") (hscale : 0 ≤ scale)
    {c c' : Centreline ℝ} {thickness thickness' : ℝ} (longer : text.length ≤ text'.length)
    (shorter : reachOf c' ≤ reachOf c) (thinner : thickness' ≤ thickness) (smaller : scale' ≤ scale)
    (hnone : place? style c (.text text) thickness scale = .ok none) :
    place? style c' (.text text') thickness' scale' = .ok none := by
  have h' : text' ≠ "" := by
    rintro rfl
    exact absurd longer (not_le.mpr (length_pos h))
  obtain ⟨size, hsize, -⟩ := fontSize_isSize hstyle h hscale (reachOf c) (strip thickness)
  obtain ⟨size', hsize', -, hle⟩ :=
    fontSize_antitone hstyle h hscale longer shorter (strip_mono thinner) smaller hsize
  exact (place?_eq_none_iff h' hsize').mpr (hle.trans ((place?_eq_none_iff h hsize).mp hnone))

end Caption
end NodeLink
