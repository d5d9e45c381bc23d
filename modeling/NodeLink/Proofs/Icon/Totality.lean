import NodeLink.Icon.Place
import NodeLink.Proofs.Geometry.PathReading
import NodeLink.Proofs.Drawing.Totality
import NodeLink.Proofs.Icon.Loading

/-!
# Icons that do not fail

An icon that is named by a path on its own machine is loaded or missing, whatever the files hold. Its box is a
square, whose width by its height is more than an aspect of zero, so that no size is divided by such an aspect.
-/

namespace NodeLink

open Scalar Value

variable {d : Disc Value} {b : Box Value}

namespace Value

/-- A double that stands for a positive number. -/
def IsPositive (v : Value) : Prop :=
  ∃ x m e hm, v = .real x ∧ x.toModel.unpack = Float.Model.UnpackedFloat.finite .positive m e hm

/-- A double that is far from the largest ones. -/
def IsBounded (v : Value) : Prop := ∃ x, v = .real x ∧ Binary64.Below 951 x

theorem isBounded_real {x : Float} (h : Binary64.Below 951 x) : (Value.real x).IsBounded := ⟨x, rfl, h⟩

theorem IsBounded.isDouble {v : Value} (h : v.IsBounded) : v.IsDouble := by
  obtain ⟨x, rfl, -⟩ := h
  exact ⟨x, rfl⟩

theorem isPositive_of_bounded {v : Value} (h : v.IsBounded) :
    Succeeds (Scalar.le v 0) fun below => below = false → v.IsPositive := by
  obtain ⟨x, rfl, hx⟩ := h
  refine ⟨_, rfl, fun hle => ?_⟩
  change (Number.compareWhole? 0 x == some .gt || Number.compareWhole? 0 x == some .eq) = false at hle
  obtain ⟨hgt, heq⟩ := Bool.or_eq_false_iff.mp hle
  obtain ⟨m, e, hm, hpositive⟩ := hx.positive (by simpa using heq) (by simpa using hgt)
  exact ⟨x, m, e, hm, rfl, hpositive⟩

end Value

namespace Box

theorem settle_succeeds (hb : b.IsDouble) : Succeeds b.settle Box.IsDouble := by
  apply (Value.settle_succeeds hb.x).bind
  intro x hx
  apply (Value.settle_succeeds hb.y).bind
  intro y hy
  apply (Value.settle_succeeds hb.width).bind
  intro width hwidth
  apply (Value.settle_succeeds hb.height).bind
  intro height hheight
  exact .pure ⟨hx, hy, hwidth, hheight⟩

/-- A square is scaled to any aspect: to zero by its height, which nothing is divided by. -/
theorem scaledTo_succeeds {side : Value} (hside : side.IsPositive) (aspect : Float) :
    Succeeds (scaledTo side side (.real aspect)) fun size => size.1.IsDouble ∧ size.2.IsDouble := by
  obtain ⟨x, m, e, hm, rfl, hx⟩ := hside
  have hone := Binary64.normal_div_self hx
  have hquotient : (Value.real x / Value.real x) = .real (x / x) := by
    change divReal x x = _
    rw [divReal, Binary64.ne_zero_of_positive hx]
    rfl
  have hreal : (Value.real x).IsDouble := isDouble_real x
  have hcompare : Succeeds (gt (Value.real (x / x)) (.real aspect)) fun above => above = decide (aspect < x / x) :=
    ⟨_, rfl, rfl⟩
  unfold scaledTo
  rw [hquotient]
  apply hcompare.bind
  rintro _ rfl
  refine .ite (fun _ => ?_) fun hge => ?_
  · apply (Value.settle_succeeds (mul_left hreal (isDouble_real aspect).fits)).bind
    intro width hwidth
    exact .pure ⟨hwidth, hreal⟩
  · have hdivides : (Value.real aspect).Divides :=
      ⟨aspect, rfl, Binary64.ne_zero_of_not_lt hone (by simpa using hge)⟩
    apply (Value.settle_succeeds (div_of_divides hreal.fits hdivides)).bind
    intro height hheight
    exact .pure ⟨hreal, hheight⟩

/-- In a square area there is a box of any aspect, at the same distance from all its edges. -/
theorem fitted_succeeds {padding room : Value} (hb : b.IsDouble) (hp : padding.IsDouble)
    (hwidth : b.width - padding * 2 = room) (hheight : b.height - padding * 2 = room) (hroom : room.IsBounded)
    (aspect : Float) : Succeeds (b.fitted padding (.real aspect)) Box.IsDouble := by
  have hx := hb.x
  have hy := hb.y
  have hw := hb.width
  have hh := hb.height
  have hdouble := hroom.isDouble
  have hsettled : Succeeds (Scalar.settle room) fun v => v = room := ⟨room, hdouble.fits.settle, rfl⟩
  have hzero : (0.0 : Value).IsDouble := isDouble_decimal 0 true 1
  have hflat : Succeeds (isFlat room room) fun flat => flat = false → room.IsPositive := by
    apply (isPositive_of_bounded hroom).bind
    rintro (_ | _) hpositive
    · exact (le_succeeds hdouble.fits fits_zero).mono fun _ _ _ => hpositive rfl
    · exact .pure (by simp)
  unfold fitted
  rw [hwidth, hheight]
  apply hsettled.bind
  rintro width rfl
  apply hsettled.bind
  rintro height hsame
  rw [hsame]
  apply hflat.bind
  rintro (_ | _) hpositive
  · apply (scaledTo_succeeds (hpositive rfl) aspect).bind
    rintro ⟨w, h⟩ ⟨hw', hh'⟩
    exact settle_succeeds ⟨by grind, by grind, hw', hh'⟩
  · exact settle_succeeds ⟨by grind, by grind, hzero, hzero⟩

end Box

namespace Icon

/-! ## Boxes of icons -/

/-- Half the side of the square that an icon stands in, and the distance it keeps from its edges. -/
theorem shares_of_size {n : Nat} (h : n < moderateLimit) :
    (Value.whole n * 0.8 : Value) = .real (Binary64.ofInt n * 0.8) ∧
      (Value.whole n * 0.1 : Value) = .real (Binary64.ofInt n * 0.1) := by
  have hfits : wholeFits n = true := wholeFits_of_moderate (by omega)
  constructor
  · change Value.mul (.whole n) (.real 0.8) = _
    simp only [Value.mul, combine, withReal_of_fits hfits]
  · change Value.mul (.whole n) (.real 0.1) = _
    simp only [Value.mul, combine, withReal_of_fits hfits]

/-- A box of doubles as wide as it is high. -/
structure IsSquare (b : Box Value) (side : Float) : Prop where
  isDouble : b.IsDouble
  width : b.width = .real side
  height : b.height = .real side

theorem square_succeeds (hc : d.centre.IsDouble) {n : Nat} (hn : d.radius = .whole n) (h : n < moderateLimit) :
    Succeeds (square d) fun area => IsSquare area (Binary64.ofInt n * 0.8 * Binary64.ofInt 2) := by
  have hhalf : halfSide d.radius = .real (Binary64.ofInt n * 0.8) := by
    rw [hn]
    exact (shares_of_size h).1
  unfold square
  rw [hhalf]
  apply Succeeds.bind (P := fun half => half = .real (Binary64.ofInt n * 0.8)) ⟨_, rfl, rfl⟩
  rintro half rfl
  have hdouble : (Value.real (Binary64.ofInt n * 0.8)).IsDouble := isDouble_real _
  exact .pure ⟨⟨by grind, by grind, by grind, by grind⟩, real_mul_two _, real_mul_two _⟩

/-- What is left of the square between its edges is bounded. -/
theorem isBounded_room {n : Nat} (h : n < moderateLimit) :
    (Value.real (Binary64.ofInt n * 0.8 * Binary64.ofInt 2) - .real (Binary64.ofInt n * 0.1) * 2).IsBounded := by
  have hsize := below_of_moderate h
  have hmost : Binary64.Below (-53) 0.8 := Or.inr ⟨_, _, _, _, rfl, by decide⟩
  have hsome : Binary64.Below (-56) 0.1 := Or.inr ⟨_, _, _, _, rfl, by decide⟩
  have htwo : Binary64.Below (-51) (Binary64.ofInt 2) := Or.inr ⟨_, _, _, _, rfl, le_rfl⟩
  have hside := (hsize.mul hmost (by decide) (by decide)).mul htwo (by decide) (by decide)
  have hedges := (hsize.mul hsome (by decide) (by decide)).mul htwo (by decide) (by decide)
  have hsub (x y : Float) : (Value.real x - .real y : Value) = .real (x - y) := rfl
  have hdouble (x : Float) : (Value.real x * 2 : Value) = .real (x * Binary64.ofInt 2) := real_mul_two x
  rw [hdouble, hsub]
  have hroom := (hside.sub (hedges.mono (by decide)) (by decide) (by decide)).mono (k := 951) (by decide)
  exact isBounded_real hroom

theorem symbolBox_succeeds (hd : d.Sized) (aspect : Float) : Succeeds (symbolBox d (.real aspect)) Box.IsDouble := by
  obtain ⟨n, hn, hlimit⟩ := hd.radius
  apply (square_succeeds hd.centre hn hlimit).bind
  rintro area ⟨harea, hwidth, hheight⟩
  have hsettled : area.settle = .ok area := by
    obtain ⟨x, y, w, h⟩ := area
    obtain ⟨⟨x, rfl⟩, ⟨y, rfl⟩, ⟨w, rfl⟩, ⟨h, rfl⟩⟩ := harea
    rfl
  have hpadding : d.radius * 0.1 = .real (Binary64.ofInt n * 0.1) := by
    rw [hn]
    exact (shares_of_size hlimit).2
  apply Succeeds.bind (P := fun b => b = area) ⟨area, hsettled, rfl⟩
  rintro _ rfl
  rw [hpadding]
  apply Succeeds.bind (P := fun padding => padding = Value.real (Binary64.ofInt n * 0.1)) ⟨_, rfl, rfl⟩
  rintro padding rfl
  exact Box.fitted_succeeds harea (isDouble_real _) (by rw [hwidth]) (by rw [hheight]) (isBounded_room hlimit) aspect

theorem le_zero_succeeds {v : Value} (h : v.IsDouble) :
    Succeeds (le v 0) fun below => below = false → v.Divides := by
  obtain ⟨x, rfl⟩ := h
  refine ⟨_, rfl, fun hle => ⟨x, rfl, ne_zero_of_compareWhole? fun heq => ?_⟩⟩
  change (Number.compareWhole? 0 x == some .gt || Number.compareWhole? 0 x == some .eq) = false at hle
  rw [heq] at hle
  cases hle

theorem aspect_succeeds (viewBox : List Char) : Succeeds (aspect .real viewBox) IsDouble := by
  unfold aspect
  cases Symbol.sides? viewBox with
  | none => exact .pure (isDouble_decimal 10 true 1)
  | some sides =>
    have hflat : Succeeds (Box.isFlat (real sides.1) (real sides.2)) fun flat =>
        flat = false → (real sides.2).Divides := by
      apply (le_zero_succeeds (isDouble_real sides.1)).bind
      rintro (_ | _) -
      · exact le_zero_succeeds (isDouble_real sides.2)
      · exact .pure (by simp)
    apply hflat.bind
    rintro (_ | _) hdivides
    · exact settle_succeeds (div_of_divides (isDouble_real sides.1).fits (hdivides rfl))
    · exact .pure (isDouble_decimal 10 true 1)

theorem useBox_succeeds (hd : d.Sized) (viewBox : List Char) : Succeeds (useBox .real d viewBox) Box.IsDouble := by
  apply (aspect_succeeds viewBox).bind
  rintro _ ⟨aspect, rfl⟩
  exact symbolBox_succeeds hd aspect

/-! ## Loading and references -/

/-- The name of an icon is none, or the path of a file as it is. -/
def IsLocal (icon : Json) : Prop :=
  icon = .null ∨ ∃ s : String, icon = .text s ∧ isWeb s.toList = false ∧ Text.afterLead? "file://".toList s.toList = none

variable {w : World} {icon : Json}

theorem load_succeeds {s : String} (hweb : isWeb s.toList = false)
    (hfile : Text.afterLead? "file://".toList s.toList = none) : Succeeds (load w (.text s)) fun _ => True := by
  have hpath : localPath s.toList = .ok (Text.Path.normal s.toList) := by
    unfold localPath
    rw [hfile]
  have hfetch : fetch w (.text s) = fetchFile w s := by
    change (if isWeb s.toList then fetchWeb w s else fetchFile w s) = _
    rw [hweb]
    rfl
  unfold load
  rw [hfetch]
  unfold fetchFile
  rw [hpath]
  simp only [bind, Except.bind]
  cases readFile w (Text.Path.normal s.toList) with
  | ok cs => exact ⟨_, rfl, trivial⟩
  | error reason => exact ⟨_, rfl, trivial⟩

/-- Local addresses have keys, so that the distinct ones can be told apart. -/
theorem distinct_succeeds {uris : List Json} (h : ∀ uri ∈ uris, IsLocal uri) :
    Succeeds (distinct uris) fun unique => ∀ uri ∈ unique, uri.isGiven = true ∧ IsLocal uri := by
  induction uris with
  | nil => exact ⟨[], rfl, by simp⟩
  | cons uri rest ih =>
    obtain ⟨huri, hrest⟩ := List.forall_mem_cons.mp h
    refine .ite (fun hgiven => ?_) fun _ => ih hrest
    have hkey : Succeeds (Graph.keyOf uri) fun _ => True := by
      obtain rfl | ⟨s, rfl, -⟩ := huri
      · exact ⟨_, rfl, trivial⟩
      · exact ⟨_, rfl, trivial⟩
    apply hkey.bind
    intro key _
    apply (ih hrest).bind
    intro more hmore
    refine .pure fun other hother => ?_
    rcases List.mem_cons.mp hother with rfl | hother
    · exact ⟨hgiven, huri⟩
    · exact hmore other (List.mem_of_mem_filter hother)

theorem loadAll_succeeds {uris : List Json} (h : ∀ uri ∈ uris, IsLocal uri) :
    Succeeds (loadAll w uris) fun _ => True := by
  obtain ⟨unique, hdistinct, hunique⟩ := distinct_succeeds h
  rcases loadInOrder_cases (w := w) hdistinct (fun i hi => List.mem_range.mpr hi) with
    ⟨fetched, -, -, hrun⟩ | ⟨uri, huri, fault, -, hfault⟩
  · exact ⟨_, hrun, trivial⟩
  · obtain ⟨hgiven, rfl | ⟨s, rfl, hweb, hfile⟩⟩ := hunique uri huri
    · cases hgiven
    · obtain ⟨outcome, hload, -⟩ := load_succeeds (w := w) hweb hfile
      rw [hload] at hfault
      cases hfault

theorem symbol?_succeeds (loaded : Loaded) (h : IsLocal icon) : Succeeds (loaded.symbol? icon) fun _ => True := by
  obtain rfl | ⟨s, rfl, -⟩ := h
  · exact ⟨_, rfl, trivial⟩
  · exact ⟨_, rfl, trivial⟩

theorem boxAttrs_succeeds (hb : b.IsDouble) : Succeeds (boxAttrs b) fun _ => True := by
  apply (compact_succeeds hb.x.fits).bind
  intro x _
  apply (compact_succeeds hb.y.fits).bind
  intro y _
  apply (compact_succeeds hb.width.fits).bind
  intro width _
  apply (compact_succeeds hb.height.fits).bind
  intro height _
  exact .pure trivial

theorem markup_succeeds (hd : d.Sized) (hicon : IsLocal icon) (symbol : Option Symbol) :
    Succeeds (markup d icon symbol) fun _ => True := by
  obtain rfl | ⟨s, rfl, -⟩ := hicon
  · exact .pure trivial
  · refine .ite (fun _ => .pure trivial) fun _ => ?_
    cases symbol with
    | some symbol =>
      apply Succeeds.bind (P := fun _ => True)
      · apply (useBox_succeeds hd symbol.viewBox).bind
        intro area harea
        apply (boxAttrs_succeeds harea).bind
        intro attrs _
        exact .pure trivial
      · intro m _
        exact .pure trivial
    | none =>
      obtain ⟨n, hn, hlimit⟩ := hd.radius
      apply Succeeds.bind (P := fun _ => True)
      · apply (square_succeeds hd.centre hn hlimit).bind
        intro area harea
        apply Succeeds.bind (P := fun _ => True) ⟨s, rfl, trivial⟩
        intro name _
        apply (boxAttrs_succeeds harea.isDouble).bind
        intro attrs _
        exact .pure trivial
      · intro m _
        exact .pure trivial

end Icon
end NodeLink
