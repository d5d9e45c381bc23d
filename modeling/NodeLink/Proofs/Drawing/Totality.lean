import NodeLink.Drawing.Scene
import NodeLink.Proofs.Geometry.Totality

/-!
# Drawing that does not fail

Circles of sizes from a text, around points of doubles, and texts that are not too long can be drawn: their extent,
the box around it, the size of every caption and where it stands. The angle of a line is at most half a turn, so
that a caption can be turned by it, and a text that is written has letters to share its width among.
-/

namespace NodeLink

open Scalar Value

def Json.IsText (value : Json) : Prop := ∃ s : String, value = .text s

/-- A text of characters that are not too many. -/
def Json.IsLabel (label : Json) : Prop := ∃ s : String, label = .text s ∧ s.length < moderateLimit

theorem Json.IsLabel.isText {label : Json} (h : label.IsLabel) : label.IsText := by
  obtain ⟨s, rfl, -⟩ := h
  exact ⟨s, rfl⟩

/-- Measures and colours that every drawing can go by. -/
structure Style.Usual (style : Style Value) : Prop where
  width : ∀ w ∈ style.width, w.Fits
  height : ∀ h ∈ style.height, h.Fits
  padding : style.padding.Fits
  bothPaddings : (2 * style.padding).Fits
  minFont : style.minFont.IsFontSize
  maxFont : style.maxFont.IsFontSize
  fillRatio : style.fillRatio.IsDouble
  hideBelow : style.hideBelow.IsDouble
  referenceSize : style.referenceSize.Fits
  background : style.background.isGiven = true → style.background.IsText
  edgeColor : style.edgeColor.isGiven = true → style.edgeColor.IsText

structure Stretch.IsDouble (s : Stretch Value) : Prop where
  minX : s.minX.IsDouble
  minY : s.minY.IsDouble
  maxX : s.maxX.IsDouble
  maxY : s.maxY.IsDouble

structure Extent.IsDouble (e : Extent Value) : Prop where
  minX : ∀ x ∈ e.minX, x.IsDouble
  minY : ∀ y ∈ e.minY, y.IsDouble
  maxX : ∀ x ∈ e.maxX, x.IsDouble
  maxY : ∀ y ∈ e.maxY, y.IsDouble

structure Box.IsDouble (b : Box Value) : Prop where
  x : b.x.IsDouble
  y : b.y.IsDouble
  width : b.width.IsDouble
  height : b.height.IsDouble

variable {style : Style Value} {extent : Extent Value} {d : Disc Value} {p q : Point Value} {c : Curve Value}
  {text : Json} {size scale thickness x y u v : Value}

/-! ## Extents and boxes -/

theorem Stretch.settle_succeeds (hx : x.IsDouble) (hy : y.IsDouble) (hu : u.IsDouble) (hv : v.IsDouble) :
    Succeeds (Stretch.settle ⟨x, y, u, v⟩) Stretch.IsDouble := by
  apply (Value.settle_succeeds hx).bind
  intro x hx
  apply (Value.settle_succeeds hy).bind
  intro y hy
  apply (Value.settle_succeeds hu).bind
  intro u hu
  apply (Value.settle_succeeds hv).bind
  intro v hv
  exact .pure ⟨hx, hy, hu, hv⟩

theorem Stretch.ofDisc_succeeds (hd : d.Lies) : Succeeds (Stretch.ofDisc d) Stretch.IsDouble := by
  have hc := hd.centre
  have hr := hd.radius
  apply Stretch.settle_succeeds <;> grind

namespace Extent

theorem isDouble_empty : Extent.IsDouble {} := ⟨by simp, by simp, by simp, by simp⟩

theorem bounded_succeeds (hv : v.IsDouble) (hx : x.IsDouble) :
    Succeeds (do return if ← isBelowTop v then some x else none) fun bound : Option Value => ∀ b ∈ bound, b.IsDouble := by
  apply (compare_succeeds hv.fits (Or.inl ⟨Binary64.infinity, rfl⟩) .less).bind
  rintro (_ | _) -
  · exact .pure (by simp)
  · exact .pure (by simpa using hx)

theorem lower_succeeds {bound : Option Value} (hb : ∀ b ∈ bound, b.IsDouble) (hx : x.IsDouble) :
    Succeeds (lower bound x) fun bound => ∀ b ∈ bound, b.IsDouble := by
  cases bound with
  | none => exact bounded_succeeds hx hx
  | some b =>
    have hb := hb b rfl
    exact (least_succeeds hb.fits hx.fits hb hx).map fun v hv => by simpa using hv

theorem upper_succeeds {bound : Option Value} (hb : ∀ b ∈ bound, b.IsDouble) (hx : x.IsDouble) :
    Succeeds (upper bound x) fun bound => ∀ b ∈ bound, b.IsDouble := by
  cases bound with
  | none => exact bounded_succeeds (isDouble_neg hx) hx
  | some b =>
    have hb := hb b rfl
    exact (greatest_succeeds hb.fits hx.fits hb hx).map fun v hv => by simpa using hv

theorem add_succeeds {s : Stretch Value} (he : extent.IsDouble) (hs : s.IsDouble) :
    Succeeds (extent.add s) Extent.IsDouble := by
  apply (lower_succeeds he.minX hs.minX).bind
  intro minX hminX
  apply (lower_succeeds he.minY hs.minY).bind
  intro minY hminY
  apply (upper_succeeds he.maxX hs.maxX).bind
  intro maxX hmaxX
  apply (upper_succeeds he.maxY hs.maxY).bind
  intro maxY hmaxY
  exact .pure ⟨hminX, hminY, hmaxX, hmaxY⟩

theorem addDisc_succeeds (he : extent.IsDouble) (hd : d.Lies) : Succeeds (extent.addDisc d) Extent.IsDouble := by
  apply (Stretch.ofDisc_succeeds hd).bind
  intro s hs
  exact add_succeeds he hs

theorem isDouble_getD {bound : Option Value} (hb : ∀ b ∈ bound, b.IsDouble) (hx : x.IsDouble) :
    (bound.getD x).IsDouble := by
  cases bound with
  | none => exact hx
  | some b => exact hb b rfl

theorem box_succeeds (he : extent.IsDouble) (hp : style.Usual) : Succeeds (extent.box style.padding) Box.IsDouble := by
  unfold box
  refine .ite (fun _ => ?_) fun _ => ?_
  · exact ⟨_, rfl, isDouble_decimal 0 true 1, isDouble_decimal 0 true 1, isDouble_decimal 1000 true 1,
      isDouble_decimal 1000 true 1⟩
  · have htop : (top : Value).IsDouble := ⟨_, rfl⟩
    have hminX := isDouble_getD he.minX htop
    have hminY := isDouble_getD he.minY htop
    have hmaxX := isDouble_getD he.maxX (isDouble_neg htop)
    have hmaxY := isDouble_getD he.maxY (isDouble_neg htop)
    have hpadding := hp.padding
    have hboth := hp.bothPaddings
    dsimp only
    apply (Value.settle_succeeds (by grind)).bind
    intro x hx
    apply (Value.settle_succeeds (by grind)).bind
    intro y hy
    apply (Value.settle_succeeds (by grind)).bind
    intro width hwidth
    apply (Value.settle_succeeds (by grind)).bind
    intro height hheight
    exact .pure ⟨hx, hy, hwidth, hheight⟩

end Extent

/-! ## Angles -/

theorem div_pi_eq : ∃ x, (180 / Scalar.pi : Value) = .real x ∧ Binary64.Below (-47) x := by
  have hfits : wholeFits 180 = true := wholeFits_of_lt (by decide)
  have hpi : (Number.piFloat == 0) = false := rfl
  refine ⟨Binary64.ofInt 180 / Number.piFloat, ?_, Or.inr ⟨_, _, _, _, rfl, by decide⟩⟩
  change Value.div (.whole 180) (.real Number.piFloat) = _
  simp only [Value.div, combine, withReal_of_fits hfits, divReal, hpi]
  rfl

theorem pi_div_eq : ∃ x, (Scalar.pi / 180 : Value) = .real x ∧ Binary64.Below (-58) x := by
  have hfits : wholeFits 180 = true := wholeFits_of_lt (by decide)
  have hturn : (Binary64.ofInt 180 == 0) = false := rfl
  refine ⟨Number.piFloat / Binary64.ofInt 180, ?_, Or.inr ⟨_, _, _, _, rfl, by decide⟩⟩
  change Value.div (.real Number.piFloat) (.whole 180) = _
  simp only [Value.div, combine, withReal_of_fits hfits, divReal, hturn]
  rfl

/-- An angle in degrees that is not too large, or no number. -/
def Value.IsAngle (v : Value) : Prop := ∃ x, v = .real x ∧ Binary64.Tame (-42) x

theorem Value.IsAngle.isDouble (h : v.IsAngle) : v.IsDouble := by
  obtain ⟨x, rfl, -⟩ := h
  exact ⟨x, rfl⟩

theorem tame_direction (hx : x.IsDouble) (hy : y.IsDouble) :
    ∃ a, degrees (atan2 y x) = .real a ∧ Binary64.Tame (-44) a := by
  obtain ⟨x, rfl⟩ := hx
  obtain ⟨y, rfl⟩ := hy
  obtain ⟨c, hc, hbelow⟩ := div_pi_eq
  refine ⟨Number.angleFloat y x * c, ?_, (Binary64.tame_angle y x).mul hbelow (by decide) (by decide)⟩
  change Value.real (Number.angleFloat y x) * (180 / Scalar.pi) = _
  rw [hc]
  rfl

namespace Caption

theorem upright_succeeds (hx : x.IsDouble) (hy : y.IsDouble) :
    Succeeds (upright (degrees (atan2 y x))) Value.IsAngle := by
  obtain ⟨a, ha, htame⟩ := tame_direction hx hy
  have hreal (b : Float) : (Value.real b).Fits := Or.inl ⟨b, rfl⟩
  have hfits : wholeFits 180 = true := wholeFits_of_lt (by decide)
  have hturn : Binary64.Below (-44) (Binary64.ofInt 180) := Or.inr ⟨_, _, _, _, rfl, by decide⟩
  rw [ha]
  apply (gt_succeeds (hreal a) (fits_whole (n := 90) (by decide))).bind
  rintro (_ | _) -
  · apply (lt_succeeds (hreal a) (fits_whole (n := -90) (by decide))).bind
    rintro (_ | _) -
    · exact .pure ⟨a, rfl, htame.mono (by decide)⟩
    · refine ⟨.real (a + Binary64.ofInt 180), ?_, _, rfl, htame.add hturn (by decide) (by decide)⟩
      change Value.settle (Value.add (.real a) (.whole 180)) = _
      simp only [Value.add, combine, withReal_of_fits hfits]
      rfl
  · refine ⟨.real (a - Binary64.ofInt 180), ?_, _, rfl, htame.sub hturn (by decide) (by decide)⟩
    change Value.settle (Value.sub (.real a) (.whole 180)) = _
    simp only [Value.sub, combine, withReal_of_fits hfits]
    rfl

theorem turn_succeeds (h : v.IsAngle) :
    Succeeds (Scalar.settle (radians v)) fun turn => (sin turn).IsDouble ∧ (cos turn).IsDouble := by
  obtain ⟨a, rfl, htame⟩ := h
  obtain ⟨c, hc, hbelow⟩ := pi_div_eq
  have hfinite := (htame.mul hbelow (by decide) (by decide)).isInf
  have hturn : radians (Value.real a) = .real (a * c) := by
    change Value.real a * (Scalar.pi / 180) = _
    rw [hc]
    rfl
  rw [hturn]
  exact ⟨.real (a * c), rfl, isDouble_periodic hfinite Float.sin, isDouble_periodic hfinite Float.cos⟩

/-! ## Sizes of letters -/

theorem textWidth_succeeds (ht : text.IsLabel) (hs : size.IsFontSize) : Succeeds (textWidth text size) Value.IsDouble := by
  obtain ⟨s, rfl, hlength⟩ := ht
  exact Value.settle_succeeds (mul_right (hs.fits_mul hlength) (isDouble_decimal 6 true 1))

theorem viewportScale_succeeds (hu : u.IsDouble) (hv : v.IsDouble) (hx : x.Fits) :
    Succeeds (viewportScale u v x) Value.IsDouble := by
  apply (greatest_succeeds hu.fits hv.fits hu hv).bind
  intro longer hlonger
  apply (le_zero_succeeds hlonger).bind
  rintro (_ | _) hne
  · exact Value.settle_succeeds (div_of_divides hx (hne rfl))
  · exact .pure (isDouble_decimal 10 true 1)

theorem length_ne_zero {s : String} (h : (Json.text s).isGiven = true) : s.length ≠ 0 := by
  intro h0
  have hempty : s.isEmpty = true := by simpa [String.length_eq_zero_iff] using h0
  rw [Json.isGiven, hempty] at h
  cases h

theorem fittingSize_succeeds (hstyle : style.Usual) (ht : text.IsLabel) (hgiven : text.isGiven = true)
    (hu : u.IsDouble) (hv : v.Fits) : Succeeds (fittingSize style text u v) Value.IsFontSize := by
  have hratio := hstyle.fillRatio
  have hmax := hstyle.maxFont
  obtain ⟨s, rfl, hlength⟩ := ht
  apply (Value.settle_succeeds (mul_left hu hratio.fits)).bind
  intro wide hwide
  apply (Value.settle_succeeds
    (div_of_divides hwide.fits (divides_of_length (length_ne_zero hgiven) hlength))).bind
  intro byWidth hbyWidth
  apply (Value.settle_succeeds (mul_right hv hratio)).bind
  intro byHeight hbyHeight
  apply (least_succeeds hbyWidth.fits hbyHeight.fits hbyWidth hbyHeight).bind
  intro least hleast
  exact least_succeeds hleast.fits hmax.fits (Or.inl hleast) hmax

theorem hasNoPlace_succeeds (hu : u.IsDouble) (hv : v.Fits) :
    Succeeds (hasNoPlace text u v) fun without => without = false → text.isGiven = true := by
  unfold hasNoPlace
  refine .ite (fun _ => .pure (by simp)) fun hgiven => ?_
  have hgiven : text.isGiven = true := by simpa using hgiven
  apply (le_succeeds hu.fits fits_zero).bind
  rintro (_ | _) -
  · exact (le_succeeds hv fits_zero).mono fun _ _ _ => hgiven
  · exact .pure (by simp)

theorem fontSize_succeeds (hstyle : style.Usual) (ht : text.IsLabel) (hu : u.IsDouble) (hv : v.Fits)
    (hscale : scale.IsDouble) : Succeeds (fontSize style text u v scale) Value.IsFontSize := by
  have hzero : (0.0 : Value).IsFontSize := Or.inl (isDouble_decimal 0 true 1)
  have hmin := hstyle.minFont
  apply (hasNoPlace_succeeds hu hv).bind
  rintro (_ | _) hgiven
  · apply (fittingSize_succeeds hstyle ht (hgiven rfl) hu hv).bind
    intro size hsize
    apply (lt_succeeds (mul_right hsize.fits hscale).fits hstyle.hideBelow.fits).bind
    rintro (_ | _) -
    · exact greatest_succeeds hsize.fits hmin.fits hsize hmin
    · exact .pure hzero
  · exact .pure hzero

theorem band_succeeds (h : thickness.IsSize) : Succeeds (band thickness) Value.Fits :=
  have hten : (10 : Value).Fits := fits_whole (n := 10) (by decide)
  greatest_succeeds h.fits_strip hten h.fits_strip hten

theorem offset_succeeds (h : thickness.IsSize) (hs : size.IsFontSize) : Succeeds (offset thickness size) Value.IsDouble :=
  Value.settle_succeeds (add_left h.half (mul_right hs.fits (isDouble_decimal 75 true 2)).fits)

theorem reach_succeeds (ht : text.IsLabel) (hs : size.IsFontSize) : Succeeds (reach text size) Value.IsDouble := by
  apply (textWidth_succeeds ht hs).bind
  intro width hwidth
  exact Value.settle_succeeds (add_left (half hwidth) hs.fits)

/-! ## Captions of edges -/

def Lie.IsDouble : Lie Value → Prop
  | .turned angle => angle.IsDouble
  | .along curve => curve.IsDouble

/-- A caption in its place, of numbers that can be written. -/
structure Placed.Sound (placed : Placed Value) : Prop where
  fontSize : placed.fontSize.IsFontSize
  lie : placed.lie.IsDouble
  around : placed.around.Lies

theorem besideLine_succeeds (hp : p.IsDouble) (hq : q.IsDouble) (ht : text.IsLabel) (hs : size.IsFontSize)
    (hthick : thickness.IsSize) : Succeeds (besideLine p q text size thickness) Placed.Sound := by
  apply (midpoint_succeeds hp hq).bind
  intro mid hmid
  apply (upright_succeeds (x := q.x - p.x) (y := q.y - p.y) (by grind) (by grind)).bind
  intro angle hangle
  apply (offset_succeeds hthick hs).bind
  intro off hoff
  apply (turn_succeeds hangle).bind
  rintro turn ⟨hsin, hcos⟩
  apply (Point.settle_succeeds (by grind) (by grind)).bind
  intro centre hcentre
  apply (reach_succeeds ht hs).bind
  intro radius hradius
  exact .pure ⟨hs, hangle.isDouble, hcentre, hradius.fits⟩

theorem inward_succeeds (hc : c.IsDouble) (hp : p.IsDouble) : Succeeds (inward c p) Point.IsDouble := by
  apply (Value.settle_succeeds (by grind)).bind
  intro depth hdepth
  apply (gt_zero_succeeds hdepth).bind
  rintro (_ | _) hne
  · apply (Value.settle_succeeds (by grind)).bind
    intro length hlength
    apply (eq_zero_succeeds hlength).bind
    intro none hnone
    have hchord : (if none then 1.0 else length : Value).Divides := by
      cases none with
      | false => exact hnone rfl
      | true => exact ⟨1.0, rfl, rfl⟩
    exact Point.settle_succeeds (div_of_divides (by grind) hchord) (div_of_divides (by grind) hchord)
  · have hdivides := hne rfl
    exact Point.settle_succeeds (div_of_divides (by grind) hdivides) (div_of_divides (by grind) hdivides)

theorem innerCurve_succeeds (hc : c.IsDouble) (hv : v.IsDouble) : Succeeds (innerCurve c v) Curve.IsDouble := by
  apply (midpoint_succeeds hc.start hc.finish).bind
  intro mid hmid
  apply (Point.settle_succeeds (by grind) (by grind)).bind
  intro bulge hbulge
  apply (inward_succeeds hc hbulge).bind
  intro direction hdirection
  have hway := hdirection.scaled hv
  refine Succeeds.bind (P := Point.IsDouble) ⟨_, hway.settle, hway⟩ ?_
  intro shift hshift
  apply (Point.settle_succeeds (by grind) (by grind)).bind
  intro start hstart
  apply (Point.settle_succeeds (by grind) (by grind)).bind
  intro finish hfinish
  apply (Point.settle_succeeds (by unfold flatten; grind) (by unfold flatten; grind)).bind
  intro control hcontrol
  apply (gt_succeeds hstart.x.fits hfinish.x.fits).bind
  rintro (_ | _) -
  · exact .pure ⟨hstart, hcontrol, hfinish⟩
  · exact .pure ⟨hfinish, hcontrol, hstart⟩

theorem alongCurve_succeeds (hc : c.IsDouble) (ht : text.IsLabel) (hs : size.IsFontSize)
    (hthick : thickness.IsSize) : Succeeds (alongCurve c text size thickness) Placed.Sound := by
  apply (offset_succeeds hthick hs).bind
  intro off hoff
  apply (innerCurve_succeeds hc hoff).bind
  intro inner hinner
  have hapex : Succeeds (apex inner) Point.IsDouble := by apply Point.settle_succeeds <;> grind
  apply hapex.bind
  intro centre hcentre
  apply (reach_succeeds ht hs).bind
  intro radius hradius
  exact .pure ⟨hs, hinner, hcentre, hradius.fits⟩

theorem place?_succeeds (hstyle : style.Usual) {line : Centreline Value} (hline : line.IsDouble)
    (ht : text.isGiven = true → text.IsLabel) (hthick : thickness.IsSize) (hscale : scale.IsDouble) :
    Succeeds (place? style line text thickness scale) fun placed => ∀ p ∈ placed, p.Sound ∧ text.IsLabel := by
  unfold place?
  refine .ite (fun _ => .pure (by simp)) fun hgiven => ?_
  have ht := ht (by simpa using hgiven)
  have hs := hline.start
  have hf := hline.finish
  apply (Value.settle_succeeds (by grind)).bind
  intro chord hchord
  apply (band_succeeds hthick).bind
  intro strip hstrip
  apply (fontSize_succeeds hstyle ht hchord hstrip hscale).bind
  intro size hsize
  apply (le_succeeds hsize.fits fits_zero).bind
  rintro (_ | _) -
  · cases hcurve : line.toCurve? with
    | some curve =>
      apply (alongCurve_succeeds (Centreline.isDouble_toCurve? hline curve hcurve) ht hsize hthick).bind
      intro placed hplaced
      exact .pure (by simpa using ⟨hplaced, ht⟩)
    | none =>
      apply (besideLine_succeeds hs hf ht hsize hthick).bind
      intro placed hplaced
      exact .pure (by simpa using ⟨hplaced, ht⟩)
  · exact .pure (by simp)

/-! ## Captions of nodes -/

theorem isFontSize_tenth (h : v.IsFontSize) : (tenth v).IsFontSize := by
  obtain ⟨x, rfl⟩ | ⟨n, rfl, hn⟩ := h
  · exact Or.inl ⟨_, rfl⟩
  · exact Or.inr ⟨n, rfl, hn⟩

theorem nodeFontSize_succeeds (h : v.IsSize) : Succeeds (nodeFontSize v) Value.IsFontSize := by
  have hfive : (5 : Value).IsFontSize := Or.inr ⟨5, rfl, by decide⟩
  have hsixteen : (16 : Value).IsFontSize := Or.inr ⟨16, rfl, by decide⟩
  have hshare : (v * 0.3).IsFontSize := Or.inl (mul_right h.fits (isDouble_decimal 3 true 1))
  apply (greatest_succeeds hfive.fits hshare.fits hfive hshare).bind
  intro larger hlarger
  apply (least_succeeds hsixteen.fits hlarger.fits hsixteen hlarger).bind
  intro size hsize
  have htenth := isFontSize_tenth hsize
  exact ⟨_, htenth.fits.settle, htenth⟩

theorem nodeAnchor_succeeds (hd : d.Sized) (hs : size.IsFontSize) : Succeeds (nodeAnchor d size) Point.IsDouble := by
  have hc := hd.centre
  have hr := hd.radius.fits
  have hgap : (nodeGap : Value).Fits := fits_whole (n := 5) (by decide)
  have hthird := hs.third
  apply Point.settle_succeeds <;> grind

theorem ofNode?_succeeds (hstyle : style.Usual) (hd : d.Sized) (hscale : scale.IsDouble) :
    Succeeds (ofNode? style d text scale) fun placed => ∀ s ∈ placed, s.1.IsFontSize ∧ s.2.IsDouble := by
  unfold ofNode?
  refine .ite (fun _ => .pure (by simp)) fun _ => ?_
  apply (nodeFontSize_succeeds hd.radius).bind
  intro size hsize
  apply (lt_succeeds (mul_right hsize.fits hscale).fits hstyle.hideBelow.fits).bind
  rintro (_ | _) -
  · apply (nodeAnchor_succeeds hd hsize).bind
    intro place hplace
    exact .pure (by simpa using ⟨hsize, hplace⟩)
  · exact .pure (by simp)

end Caption

/-! ## Scenes -/

/-- A node of a scene as a text brings it along, in a place of doubles. -/
structure SceneNode.Sound (n : SceneNode Value) : Prop where
  disc : n.disc.Sized
  id : n.id.IsText
  label : n.label.IsLabel
  fill : n.fill.IsText

structure SceneEdge.Sound (e : SceneEdge Value) : Prop where
  source : e.source.Sized
  target : e.target.Sized
  thickness : e.thickness.IsSize
  curvature : e.curvature.IsDouble
  label : e.label.isGiven = true → e.label.IsLabel
  color : e.color.IsText

structure DrawnEdge.Sound (d : DrawnEdge Value) : Prop where
  edge : d.edge.Sound
  line : d.line.IsDouble

namespace SceneNode

variable {n : SceneNode Value}

theorem addCaption_succeeds (he : extent.IsDouble) (hn : n.Sound) :
    Succeeds (addCaption extent n) Extent.IsDouble := by
  have hc := hn.disc.centre
  have hr := hn.disc.radius.fits
  have hgap : (Caption.nodeGap : Value).Fits := fits_whole (n := 5) (by decide)
  unfold addCaption
  refine .ite (fun _ => .pure he) fun _ => ?_
  apply (Caption.nodeFontSize_succeeds hn.disc.radius).bind
  intro size hsize
  have hhalf := hsize.half
  apply (Value.settle_succeeds (by grind)).bind
  intro left hleft
  dsimp only
  apply (Value.settle_succeeds (by grind)).bind
  intro up hup
  apply (Caption.textWidth_succeeds hn.label hsize).bind
  intro width hwidth
  apply (Value.settle_succeeds (by grind)).bind
  intro right hright
  apply (Stretch.settle_succeeds hleft hup hright (by grind)).bind
  intro stretch hstretch
  exact Extent.add_succeeds he hstretch

theorem addTo_succeeds (he : extent.IsDouble) (hn : n.Sound) : Succeeds (addTo extent n) Extent.IsDouble := by
  apply (Extent.addDisc_succeeds he hn.disc.lies).bind
  intro e he
  exact addCaption_succeeds he hn

end SceneNode

theorem SceneEdge.line?_gives {e : SceneEdge Value} (h : e.Sound) :
    Succeeds (e.line? style) fun line => ∀ c ∈ line, c.IsDouble := by
  have hcurved : Succeeds (e.isCurved style) fun _ => True :=
    .ite (fun _ => .pure trivial) fun _ => (eq_succeeds h.curvature.fits fits_zero).map fun _ _ => trivial
  apply hcurved.bind
  intro curved _
  exact Centreline.clipped?_gives h.source h.target curved h.curvature

namespace DrawnEdge

variable {d : DrawnEdge Value}

theorem markers_succeeds (h : d.Sound) : Succeeds d.markers fun points => ∀ p ∈ points, p.IsDouble := by
  unfold markers
  cases hcurve : d.line.toCurve? with
  | some c =>
    have hc := Centreline.isDouble_toCurve? h.line c hcurve
    apply (c.point_succeeds hc (isDouble_decimal 5 true 1)).bind
    intro middle hmiddle
    exact .pure (by simp [h.line.start, h.line.finish, hmiddle])
  | none => exact .pure (by simp [h.line.start, h.line.finish])

theorem addTo_succeeds (he : extent.IsDouble) (h : d.Sound) : Succeeds (addTo extent d) Extent.IsDouble := by
  apply (Value.settle_succeeds h.edge.thickness.half).bind
  intro half hhalf
  apply (markers_succeeds h).bind
  intro points hpoints
  exact .foldlM he fun p hp e he => Extent.addDisc_succeeds he ⟨hpoints p hp, hhalf.fits⟩

theorem outline_succeeds (h : d.Sound) : Succeeds (d.outline style) Outline.IsDouble :=
  Outline.ofCentreline_succeeds h.line _ h.edge.thickness

theorem caption?_succeeds (hstyle : style.Usual) (hscale : scale.IsDouble) (h : d.Sound) :
    Succeeds (d.caption? style scale) fun placed => ∀ p ∈ placed, p.Sound ∧ d.edge.label.IsLabel :=
  Caption.place?_succeeds hstyle h.line h.edge.label h.edge.thickness hscale

end DrawnEdge

/-- A scene as the graph of a text makes it, once every node has a place of doubles. -/
structure Scene.Sound (s : Scene Value) : Prop where
  nodes : ∀ n ∈ s.nodes, n.Sound
  edges : ∀ e ∈ s.edges, e.Sound

namespace Scene

variable {s : Scene Value}

theorem drawn_gives (hs : s.Sound) :
    Succeeds (drawn (s.clipped style)) fun edges => ∀ d ∈ edges, d.Sound := by
  have heach : Succeeds ((s.clipped style).mapM ClippedEdge.drawn?) fun edges => ∀ d ∈ edges, ∀ e ∈ d, e.Sound := by
    apply Succeeds.mapM
    intro clipped hclipped
    obtain ⟨e, he, rfl⟩ := List.mem_map.mp hclipped
    apply (SceneEdge.line?_gives (hs.edges e he)).bind
    rintro (_ | line) hline
    · exact .pure (by simp)
    · exact .pure (by simpa using ⟨hs.edges e he, hline line rfl⟩)
  apply heach.bind
  intro edges hedges
  refine .pure fun d hd => ?_
  obtain ⟨d', hd', hsome⟩ := List.mem_filterMap.mp hd
  exact hedges d' hd' d hsome

theorem extent_succeeds (hs : s.Sound) {drawn : List (DrawnEdge Value)} (hd : ∀ d ∈ drawn, d.Sound) :
    Succeeds (s.extent drawn) Extent.IsDouble := by
  have hnodes : Succeeds (s.nodes.foldlM SceneNode.addTo {}) Extent.IsDouble :=
    .foldlM Extent.isDouble_empty fun n hn e he => SceneNode.addTo_succeeds he (hs.nodes n hn)
  apply hnodes.bind
  intro extent hextent
  exact .foldlM hextent fun d hmem e he => DrawnEdge.addTo_succeeds he (hd d hmem)

end Scene

end NodeLink
