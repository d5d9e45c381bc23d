import NodeLink.Proofs.Geometry.SubCurves

/-!
# Straight arrows

Seen along the way from its start to its finish, a straight edge is a row of pieces over the reals: a head with its
tip at the start, the body, and a head with its tip at the finish, where these are asked for. Each piece begins where
the one before it ends. On a short edge the heads share its length, in their own proportions.
-/

namespace NodeLink

open Set Complex ComplexConjugate

/-! ## The axis -/

section

variable {s f : ℂ}

/-- How far along the way from one point to another a point is: 0 at its start, their distance at its finish. -/
noncomputable def axis (s f : ℂ) : ℂ →ᵃ[ℝ] ℝ :=
  (reLm ∘ₗ LinearMap.mulRight ℝ (conj (towards s f))).toAffineMap.comp
    (AffineMap.id ℝ ℂ - AffineMap.const ℝ ℂ s)

theorem axis_apply (z : ℂ) : axis s f z = ((z - s) * conj (towards s f)).re := rfl

theorem towards_mul_conj (apart : s ≠ f) : towards s f * conj (towards s f) = 1 := by
  have hd : dist s f ≠ 0 := dist_ne_zero.mpr apart
  rw [mul_conj, towards, normSq_div, normSq_ofReal, normSq_eq_norm_sq, ← dist_eq, dist_comm, ← sq, div_self]
  · exact ofReal_one
  · exact pow_ne_zero 2 hd

theorem axis_start : axis s f s = 0 := by
  rw [axis_apply, sub_self, zero_mul, zero_re]

theorem axis_add (apart : s ≠ f) (z w : ℂ) : axis s f (z + w * towards s f) = axis s f z + w.re := by
  rw [axis_apply, axis_apply, add_sub_right_comm, add_mul, mul_assoc, towards_mul_conj apart, mul_one, add_re]

theorem add_towards (apart : s ≠ f) : s + dist s f * towards s f = f := by
  have hd : (dist s f : ℂ) ≠ 0 := ofReal_ne_zero.mpr (dist_ne_zero.mpr apart)
  rw [towards, mul_div_cancel₀ _ hd, add_sub_cancel]

end

theorem Scalar.one_decimal : @OfScientific.ofScientific ℝ Scalar.decimalLiteral 10 true 1 = 1 := by
  change (1.0 : ℝ) = 1
  norm_num

theorem Scalar.two_literal : @OfNat.ofNat ℝ 2 (Scalar.wholeLiteral 2) = 2 := Nat.cast_ofNat

/-! ## Heads -/

namespace Head

/-- The head for a thickness where there is room for it. -/
noncomputable def full (thickness : ℝ) : Head ℝ :=
  ⟨min (max (thickness * 2.5) 8.0) 40.0, min (max (thickness * 1.8) 6.0) 30.0⟩

theorem full_pos (thickness : ℝ) : 0 < (full thickness).length ∧ 0 < (full thickness).width := by
  constructor <;> norm_num [full]

/-- A head in the proportions of another one, no longer than it and than the room there is. -/
structure Fits (head full : Head ℝ) (room : ℝ) : Prop where
  length : head.length = min full.length room
  ratio : head.length / head.width = full.length / full.width
  positive : 0 < head.length ∧ 0 < head.width

theorem fits_full {full : Head ℝ} {room : ℝ} (hpos : 0 < full.length ∧ 0 < full.width)
    (h : full.length ≤ room) : full.Fits full room :=
  ⟨(min_eq_left h).symm, rfl, hpos⟩

theorem fits_scaled {full : Head ℝ} {room : ℝ} (hpos : 0 < full.length ∧ 0 < full.width) (hroom : 0 < room)
    (h : room < full.length) :
    Fits ⟨full.length * (room / full.length), full.width * (room / full.length)⟩ full room := by
  have hscale : 0 < room / full.length := div_pos hroom hpos.1
  refine ⟨?_, ?_, ?_⟩
  · rw [min_eq_right h.le, mul_div_cancel₀ _ hpos.1.ne']
  · exact mul_div_mul_right _ _ hscale.ne'
  · exact ⟨mul_pos hpos.1 hscale, mul_pos hpos.2 hscale⟩

theorem fitted_exact (thickness : ℝ) {room : ℝ} (hroom : 0 < room) :
    ∃ head, fitted thickness room = .ok head ∧ head.Fits (full thickness) room := by
  have hlong := Scalar.greatest_exact (thickness * 2.5) (8.0 : ℝ)
  have hlength := Scalar.least_exact (max (thickness * 2.5) (8.0 : ℝ)) (40.0 : ℝ)
  have hwide := Scalar.greatest_exact (thickness * 1.8) (6.0 : ℝ)
  have hwidth := Scalar.least_exact (max (thickness * 1.8) (6.0 : ℝ)) (30.0 : ℝ)
  have hgiven : Scalar.gt room (@OfNat.ofNat ℝ 0 (Scalar.wholeLiteral 0)) = .ok true := by
    rw [Scalar.zero_literal]
    exact congrArg Except.ok (decide_eq_true hroom)
  have hrun : fitted thickness room = do
      if ← Scalar.gt (full thickness).length room then
        return ⟨(full thickness).length * (room / (full thickness).length),
          (full thickness).width * (room / (full thickness).length)⟩
      return full thickness := by
    refine (bind_of_ok hlong _).trans ?_
    refine (bind_of_ok hlength _).trans ?_
    refine (bind_of_ok hwide _).trans ?_
    refine (bind_of_ok hwidth _).trans ?_
    refine (bind_of_ok hgiven _).trans ?_
    rw [if_pos rfl]
    rfl
  have hgt : Scalar.gt (full thickness).length room = .ok (decide (room < (full thickness).length)) := rfl
  rw [hrun, hgt]
  rcases lt_or_ge room (full thickness).length with hless | hmore
  · rw [decide_eq_true hless]
    exact ⟨_, rfl, fits_scaled (full_pos thickness) hroom hless⟩
  · rw [decide_eq_false (not_lt.mpr hmore)]
    exact ⟨_, rfl, fits_full (full_pos thickness) hmore⟩

end Head

/-! ## Pieces of an outline -/

namespace Point

/-- The direction from one point to another. -/
noncomputable def unit (a b : Point ℝ) : Point ℝ := ⟨(b.x - a.x) / a.distance b, (b.y - a.y) / a.distance b⟩

/-- The point that is `a` from the start of a way. -/
noncomputable def onWay (start finish : Point ℝ) (a : ℝ) : Point ℝ := start.moved (start.unit finish) a

theorem toComplex_unit (a b : Point ℝ) : (a.unit b).toComplex = towards a.toComplex b.toComplex := by
  rw [towards, ← distance_eq_dist]
  apply Complex.ext <;> simp [unit, toComplex]

theorem toComplex_onWay (start finish : Point ℝ) (a : ℝ) : (start.onWay finish a).toComplex =
    start.toComplex + a * towards start.toComplex finish.toComplex := by
  rw [onWay, toComplex_moved, toComplex_unit]

theorem toComplex_ne {a b : Point ℝ} (apart : a ≠ b) : a.toComplex ≠ b.toComplex :=
  fun h => apart (toComplex_injective h)

theorem distance_pos {a b : Point ℝ} (apart : a ≠ b) : 0 < a.distance b := by
  rw [distance_eq_dist]
  exact dist_pos.mpr (toComplex_ne apart)

theorem direction?_exact {a b : Point ℝ} (apart : a ≠ b) : a.direction? b = .ok (some (a.unit b)) := by
  have heq : Scalar.eq (a.distance b) (@OfNat.ofNat ℝ 0 (Scalar.wholeLiteral 0)) = .ok false := by
    rw [Scalar.zero_literal]
    exact congrArg Except.ok (decide_eq_false (distance_pos apart).ne')
  refine (bind_of_ok rfl _).trans ?_
  exact bind_of_ok heq _

theorem onWay_zero (start finish : Point ℝ) : start.onWay finish 0 = start := by
  apply toComplex_injective
  rw [toComplex_onWay, ofReal_zero, zero_mul, add_zero]

theorem onWay_distance {start finish : Point ℝ} (apart : start ≠ finish) :
    start.onWay finish (start.distance finish) = finish := by
  apply toComplex_injective
  rw [toComplex_onWay, distance_eq_dist, add_towards (toComplex_ne apart)]

theorem axis_onWay {start finish : Point ℝ} (apart : start ≠ finish) (a : ℝ) :
    axis start.toComplex finish.toComplex (start.onWay finish a).toComplex = a := by
  rw [toComplex_onWay, axis_add (toComplex_ne apart), axis_start, zero_add, ofReal_re]

theorem onWay_ne {start finish : Point ℝ} (apart : start ≠ finish) {a b : ℝ} (hne : a ≠ b) :
    start.onWay finish a ≠ start.onWay finish b := by
  intro h
  have haxis := axis_onWay apart a
  rw [h, axis_onWay apart b] at haxis
  exact hne haxis.symm

end Point

namespace Outline

/-- The corners of an outline with straight sides. -/
def corners (o : Outline ℝ) : Set ℂ := {z | ∃ p, (PathCommand.move p ∈ o ∨ .line p ∈ o) ∧ p.toComplex = z}

/-- The stretch that a convex piece with straight sides takes up along the way from one point to another. -/
noncomputable def shadow (start finish : Point ℝ) (o : Outline ℝ) : Set ℝ :=
  axis start.toComplex finish.toComplex '' convexHull ℝ o.corners

theorem shadow_nil (start finish : Point ℝ) : shadow start finish [] = ∅ := by
  have hcorners : corners [] = ∅ := by simp [corners]
  rw [shadow, hcorners, convexHull_empty, image_empty]

theorem shadow_eq_uIcc {start finish : Point ℝ} {o : Outline ℝ} {a b : ℝ}
    (h : axis start.toComplex finish.toComplex '' o.corners = {a, b}) : shadow start finish o = uIcc a b := by
  rw [shadow, AffineMap.image_convexHull, h, convexHull_pair, segment_eq_uIcc]

/-- A triangle with equal legs, by its tip, the middle of its base and the length of the base. -/
def IsHead (o : Outline ℝ) (tip base : Point ℝ) (width : ℝ) : Prop :=
  ∃ left right, o = [.move tip, .line left, .line right, .close] ∧ left.midpoint right = base ∧
    left.distance right = width ∧ left.distance tip = right.distance tip

theorem band_exact (a b side : Point ℝ) : band a b side =
    [.move (a.moved side 1), .line (a.moved side (-1)), .line (b.moved side (-1)), .line (b.moved side 1),
      .close] := by
  rw [band, Scalar.one_literal, Scalar.one_decimal]

theorem corners_band (a b side : Point ℝ) : (band a b side).corners =
    {(a.moved side 1).toComplex, (a.moved side (-1)).toComplex, (b.moved side (-1)).toComplex,
      (b.moved side 1).toComplex} := by
  ext z
  simp [band_exact, corners, eq_comm]

theorem corners_triangle (tip left right : Point ℝ) :
    corners [.move tip, .line left, .line right, .close] =
      {tip.toComplex, left.toComplex, right.toComplex} := by
  ext z
  simp [corners, eq_comm]

/-- Half of a thickness across a direction. -/
noncomputable def halfAcross (u : Point ℝ) (thickness : ℝ) : Point ℝ :=
  ⟨-u.y * thickness / (2 : ℕ), u.x * thickness / (2 : ℕ)⟩

theorem halfAcross_exact (u : Point ℝ) (thickness : ℝ) :
    Point.settle ⟨-u.y * thickness / @OfNat.ofNat ℝ 2 (Scalar.wholeLiteral 2),
      u.x * thickness / @OfNat.ofNat ℝ 2 (Scalar.wholeLiteral 2)⟩ = .ok (halfAcross u thickness) := rfl

theorem toComplex_halfAcross (u : Point ℝ) (thickness : ℝ) :
    (halfAcross u thickness).toComplex = (thickness / 2 : ℝ) * I * u.toComplex := by
  apply Complex.ext <;> simp [halfAcross, Point.toComplex] <;> ring

theorem triangle_exact {tip base : Point ℝ} (apart : base ≠ tip) (width : ℝ) :
    triangle tip base width =
      .ok [.move tip, .line (base.moved (halfAcross (base.unit tip) width) 1),
        .line (base.moved (halfAcross (base.unit tip) width) (-1)), .close] := by
  refine (bind_of_ok (Point.direction?_exact apart) _).trans ?_
  refine (bind_of_ok (halfAcross_exact _ _) _).trans ?_
  rw [Scalar.one_literal, Scalar.one_decimal]
  rfl

theorem isHead_exact {tip base : Point ℝ} (apart : base ≠ tip) {width : ℝ} (hwidth : 0 ≤ width) :
    IsHead [.move tip, .line (base.moved (halfAcross (base.unit tip) width) 1),
      .line (base.moved (halfAcross (base.unit tip) width) (-1)), .close] tip base width := by
  have hd : base.distance tip ^ 2 = (tip.x - base.x) ^ 2 + (tip.y - base.y) ^ 2 := Real.sq_sqrt (by positivity)
  have hpos := Point.distance_pos apart
  refine ⟨_, _, rfl, ?_, ?_, ?_⟩
  · rw [Point.midpoint, Scalar.two_literal]
    apply Point.toComplex_injective
    apply Complex.ext <;> simp only [Point.moved, Point.toComplex] <;> ring
  · rw [Point.distance_exact, Real.sqrt_eq_iff_eq_sq (by positivity) hwidth]
    calc ((base.moved (halfAcross (base.unit tip) width) (-1)).x -
            (base.moved (halfAcross (base.unit tip) width) 1).x) ^ 2 +
          ((base.moved (halfAcross (base.unit tip) width) (-1)).y -
            (base.moved (halfAcross (base.unit tip) width) 1).y) ^ 2
      _ = ((tip.x - base.x) ^ 2 + (tip.y - base.y) ^ 2) / base.distance tip ^ 2 * width ^ 2 := by
        simp only [Point.moved, halfAcross, Point.unit]
        ring
      _ = width ^ 2 := by rw [← hd, div_self (pow_ne_zero 2 hpos.ne'), one_mul]
  · rw [Point.distance_exact, Point.distance_exact]
    congr 1
    simp only [Point.moved, halfAcross, Point.unit]
    ring

section

variable {start finish : Point ℝ} (apart : start ≠ finish)

include apart

theorem axis_across (p : Point ℝ) {u : Point ℝ} {c : ℝ}
    (hu : u.toComplex = c * towards start.toComplex finish.toComplex) (thickness factor : ℝ) :
    axis start.toComplex finish.toComplex (p.moved (halfAcross u thickness) factor).toComplex =
      axis start.toComplex finish.toComplex p.toComplex := by
  have hstep : (p.moved (halfAcross u thickness) factor).toComplex =
      p.toComplex + (factor * (thickness / 2) * c : ℝ) * I * towards start.toComplex finish.toComplex := by
    rw [Point.toComplex_moved, toComplex_halfAcross, hu]
    push_cast
    ring
  rw [hstep, axis_add (Point.toComplex_ne apart), re_ofReal_mul, I_re, mul_zero, add_zero]

omit apart in
theorem unit_onWay (start finish : Point ℝ) (a t : ℝ) :
    ∃ c : ℝ, ((start.onWay finish a).unit (start.onWay finish t)).toComplex =
      c * towards start.toComplex finish.toComplex := by
  refine ⟨(t - a) / dist (start.onWay finish a).toComplex (start.onWay finish t).toComplex, ?_⟩
  rw [Point.toComplex_unit, towards, Point.toComplex_onWay, Point.toComplex_onWay]
  push_cast
  ring

theorem triangle_onWay {a t width : ℝ} (hne : a ≠ t) (hwidth : 0 ≤ width) :
    ∃ o, triangle (start.onWay finish t) (start.onWay finish a) width = .ok o ∧
      IsHead o (start.onWay finish t) (start.onWay finish a) width ∧ shadow start finish o = uIcc a t := by
  have hbase := Point.onWay_ne apart hne
  obtain ⟨c, hu⟩ := unit_onWay start finish a t
  refine ⟨_, triangle_exact hbase width, isHead_exact hbase hwidth, shadow_eq_uIcc ?_⟩
  rw [corners_triangle]
  simp only [image_insert_eq, image_singleton, axis_across apart _ hu, Point.axis_onWay apart]
  rw [pair_eq_singleton, pair_comm]

theorem shadow_band (a b thickness : ℝ) :
    shadow start finish
      (band (start.onWay finish a) (start.onWay finish b) (halfAcross (start.unit finish) thickness)) = uIcc a b := by
  have hu : (start.unit finish).toComplex = (1 : ℝ) * towards start.toComplex finish.toComplex := by
    rw [Point.toComplex_unit, ofReal_one, one_mul]
  apply shadow_eq_uIcc
  rw [corners_band]
  simp only [image_insert_eq, image_singleton, axis_across apart _ hu, Point.axis_onWay apart]
  rw [pair_eq_singleton, insert_idem]

end

/-! ## The whole arrow -/

theorem headCount_exact (startArrow endArrow : Bool) :
    (headCount startArrow endArrow : ℝ) = (max (startArrow.toNat + endArrow.toNat) 1 : ℕ) := by
  cases startArrow <;> cases endArrow <;> exact rfl

/-- The pieces of a straight arrow, and where on the way its body begins and ends. -/
structure Pieces where
  head : Head ℝ
  first : Outline ℝ
  body : Outline ℝ
  second : Outline ℝ
  opens : ℝ
  closes : ℝ

/-- The pieces stand in a row on the way from one point to another, each from where the one before it ends. -/
structure Pieces.Row (w : Pieces) (start finish : Point ℝ) (thickness : ℝ) (startArrow endArrow : Bool) : Prop where
  head : w.head.Fits (Head.full thickness)
    (start.distance finish / (max (startArrow.toNat + endArrow.toNat) 1 : ℕ))
  opens : w.opens = if startArrow then w.head.length else 0
  closes : w.closes = start.distance finish - if endArrow then w.head.length else 0
  forward : 0 ≤ w.opens ∧ w.opens ≤ w.closes ∧ w.closes ≤ start.distance finish
  body : w.body = band (start.onWay finish w.opens) (start.onWay finish w.closes)
    (halfAcross (start.unit finish) thickness) ∧ shadow start finish w.body = Icc w.opens w.closes
  first : if startArrow then IsHead w.first start (start.onWay finish w.opens) w.head.width ∧
    shadow start finish w.first = Icc 0 w.opens else w.first = []
  second : if endArrow then IsHead w.second finish (start.onWay finish w.closes) w.head.width ∧
    shadow start finish w.second = Icc w.closes (start.distance finish) else w.second = []

namespace Pieces.Row

variable {w : Pieces} {start finish : Point ℝ} {thickness : ℝ} {startArrow endArrow : Bool}
  (h : w.Row start finish thickness startArrow endArrow)

include h

theorem shadows : shadow start finish w.first ⊆ Icc 0 w.opens ∧
    shadow start finish w.second ⊆ Icc w.closes (start.distance finish) := by
  have hfirst := h.first
  have hsecond := h.second
  constructor
  · cases startArrow with
    | true => exact hfirst.2.subset
    | false =>
      rw [show w.first = [] from hfirst, shadow_nil]
      exact empty_subset _
  · cases endArrow with
    | true => exact hsecond.2.subset
    | false =>
      rw [show w.second = [] from hsecond, shadow_nil]
      exact empty_subset _

theorem inside : ∀ piece ∈ [w.first, w.body, w.second],
    shadow start finish piece ⊆ Icc 0 (start.distance finish) := by
  obtain ⟨hfirst, hsecond⟩ := h.shadows
  obtain ⟨hzero, hforward, hend⟩ := h.forward
  simp only [List.forall_mem_cons]
  refine ⟨?_, ?_, ?_, nofun⟩
  · exact hfirst.trans (Icc_subset_Icc_right (hforward.trans hend))
  · exact h.body.2.subset.trans (Icc_subset_Icc hzero hend)
  · exact hsecond.trans (Icc_subset_Icc_left (hzero.trans hforward))

theorem separate : [w.first, w.body, w.second].Pairwise fun p q =>
    (shadow start finish p ∩ shadow start finish q).Subsingleton := by
  obtain ⟨hfirst, hsecond⟩ := h.shadows
  obtain ⟨-, hforward, -⟩ := h.forward
  have touch {S T : Set ℝ} {a b c d : ℝ} (hS : S ⊆ Icc a b) (hT : T ⊆ Icc c d) (hbc : b ≤ c) :
      (S ∩ T).Subsingleton := by
    intro x hx y hy
    have hxy : x ≤ y := (hS hx.1).2.trans (hbc.trans (hT hy.2).1)
    have hyx : y ≤ x := (hS hy.1).2.trans (hbc.trans (hT hx.2).1)
    exact le_antisymm hxy hyx
  have hbody := h.body.2.subset
  simp only [List.pairwise_cons, List.forall_mem_cons]
  refine ⟨⟨?_, ?_, nofun⟩, ⟨?_, nofun⟩, nofun, .nil⟩
  · exact touch hfirst hbody le_rfl
  · exact touch hfirst hsecond hforward
  · exact touch hbody hsecond le_rfl

end Pieces.Row

section

variable {start finish : Point ℝ} (apart : start ≠ finish)

include apart

omit apart in
theorem opens_exact (start finish : Point ℝ) (length : ℝ) (startArrow : Bool) :
    (if startArrow then (start.moved ((start.unit finish).scaled length) 1).settle else pure start) =
      .ok (start.onWay finish (if startArrow then length else 0)) := by
  cases startArrow with
  | true =>
    have hmoved : start.moved ((start.unit finish).scaled length) 1 = start.onWay finish length := by
      simp only [Point.onWay, Point.moved, Point.scaled, one_mul, mul_comm]
    exact congrArg Except.ok hmoved
  | false => exact congrArg Except.ok (start.onWay_zero finish).symm

theorem closes_exact (length : ℝ) (endArrow : Bool) :
    (if endArrow then (finish.moved ((start.unit finish).scaled length) (-1)).settle else pure finish) =
      .ok (start.onWay finish (start.distance finish - if endArrow then length else 0)) := by
  cases endArrow with
  | true =>
    have hmoved : finish.moved ((start.unit finish).scaled length) (-1) =
        start.onWay finish (start.distance finish - length) := by
      apply Point.toComplex_injective
      have hfinish := add_towards (Point.toComplex_ne apart)
      rw [Point.toComplex_moved, Point.toComplex_scaled, Point.toComplex_unit, Point.toComplex_onWay,
        Point.distance_eq_dist]
      push_cast
      linear_combination -hfinish
    exact congrArg Except.ok hmoved
  | false =>
    refine congrArg Except.ok ?_
    rw [if_neg Bool.false_ne_true, sub_zero, Point.onWay_distance apart]

theorem head_onWay {a t width : ℝ} {arrow : Bool} (hne : arrow → a ≠ t) (hwidth : 0 ≤ width) :
    ∃ o, (if arrow then triangle (start.onWay finish t) (start.onWay finish a) width else pure []) = .ok o ∧
      if arrow then IsHead o (start.onWay finish t) (start.onWay finish a) width ∧
        shadow start finish o = uIcc a t else o = [] := by
  cases arrow with
  | true => exact triangle_onWay apart (hne rfl) hwidth
  | false => exact ⟨[], rfl, rfl⟩

omit apart in
theorem opens_le_closes {length d : ℝ} {startArrow endArrow : Bool} (hpos : 0 < d)
    (h : length ≤ d / (max (startArrow.toNat + endArrow.toNat) 1 : ℕ)) :
    (if startArrow then length else 0) ≤ d - if endArrow then length else 0 := by
  cases startArrow <;> cases endArrow
  · simpa using hpos.le
  · norm_num at h ⊢
    exact h
  · norm_num at h ⊢
    exact h
  · norm_num at h ⊢
    linarith

/-- A head that fits stands in a row with the body and the other head. -/
theorem row_of_fits (thickness : ℝ) {head : Head ℝ} {startArrow endArrow : Bool}
    (h : head.Fits (Head.full thickness)
      (start.distance finish / (max (startArrow.toNat + endArrow.toNat) 1 : ℕ))) :
    ∃ w : Pieces, w.head = head ∧ w.Row start finish thickness startArrow endArrow ∧
      heads start finish (start.onWay finish w.opens) (start.onWay finish w.closes) head.width startArrow endArrow =
        .ok (w.first ++ w.second) := by
  let opens := if startArrow then head.length else 0
  let closes := start.distance finish - if endArrow then head.length else 0
  have hnonneg (arrow : Bool) : 0 ≤ if arrow then head.length else 0 := by
    cases arrow with
    | true => exact h.positive.1.le
    | false => exact le_rfl
  have hzero : 0 ≤ opens := hnonneg startArrow
  have hlast : closes ≤ start.distance finish := sub_le_self _ (hnonneg endArrow)
  have hforward : opens ≤ closes := opens_le_closes (Point.distance_pos apart) (h.length ▸ min_le_right _ _)
  have htip : startArrow → opens ≠ 0 := by
    rintro rfl
    exact h.positive.1.ne'
  have hend : endArrow → closes ≠ start.distance finish := by
    rintro rfl
    exact (sub_lt_self _ h.positive.1).ne
  obtain ⟨first, hfirst, hfirst'⟩ := head_onWay apart htip h.positive.2.le
  obtain ⟨second, hsecond, hsecond'⟩ := head_onWay apart hend h.positive.2.le
  rw [Point.onWay_zero] at hfirst hfirst'
  rw [Point.onWay_distance apart] at hsecond hsecond'
  let body := band (start.onWay finish opens) (start.onWay finish closes) (halfAcross (start.unit finish) thickness)
  refine ⟨⟨head, first, body, second, opens, closes⟩, rfl, ?_, ?_⟩
  · constructor
    case head => exact h
    case opens => rfl
    case closes => rfl
    case forward => exact ⟨hzero, hforward, hlast⟩
    case body => exact ⟨rfl, (shadow_band apart opens closes thickness).trans (uIcc_of_le hforward)⟩
    case first => rwa [uIcc_of_ge hzero] at hfirst'
    case second => rwa [uIcc_of_le hlast] at hsecond'
  · refine (branch_of_ok hfirst _).trans ?_
    exact branch_of_ok hsecond _

end

/-- A straight edge between two points is a body and a triangle for each head. The triangles have their tips exactly
at the ends, share the way between them, and keep their proportions where they get smaller. All pieces are between
the two ends, and no two of them have more than one place of the way in common. -/
theorem straight_heads_fit {start finish : Point ℝ} (apart : start ≠ finish) (thickness : ℝ)
    (startArrow endArrow : Bool) :
    ∃ w : Pieces, arrow start finish thickness startArrow endArrow = .ok (w.body ++ (w.first ++ w.second)) ∧
      w.Row start finish thickness startArrow endArrow ∧
      (∀ piece ∈ [w.first, w.body, w.second], shadow start finish piece ⊆ Icc 0 (start.distance finish)) ∧
      [w.first, w.body, w.second].Pairwise fun p q =>
        (shadow start finish p ∩ shadow start finish q).Subsingleton := by
  have hroom : 0 < start.distance finish / (max (startArrow.toNat + endArrow.toNat) 1 : ℕ) := by
    have hpos := Point.distance_pos apart
    have hcount : 0 < max (startArrow.toNat + endArrow.toNat) 1 := lt_max_of_lt_right one_pos
    positivity
  obtain ⟨head, hfitted, hhead⟩ := Head.fitted_exact thickness hroom
  obtain ⟨w, rfl, hrow, hheads⟩ := row_of_fits apart thickness hhead
  refine ⟨w, ?_, hrow, hrow.inside, hrow.separate⟩
  have hopens := opens_exact start finish w.head.length startArrow
  have hcloses := closes_exact apart w.head.length endArrow
  rw [← hrow.opens] at hopens
  rw [← hrow.closes] at hcloses
  rw [hrow.body.1]
  refine (bind_of_ok (Point.direction?_exact apart) _).trans ?_
  refine (bind_of_ok rfl _).trans ?_
  rw [headCount_exact]
  refine (bind_of_ok hfitted _).trans ?_
  rw [Scalar.one_decimal, Scalar.one_literal]
  refine (branch_of_ok hopens _).trans ?_
  refine (branch_of_ok hcloses _).trans ?_
  refine (bind_of_ok (halfAcross_exact _ _) _).trans ?_
  refine (bind_of_ok (settle_exact _) _).trans ?_
  exact bind_of_ok hheads _

/-- Two heads that are far too long for their edge meet in its middle. -/
theorem crowded_heads_meet :
    (⟨0, 0⟩ : Point ℝ) ≠ ⟨3, 4⟩ ∧
      ∃ w : Pieces, arrow ⟨0, 0⟩ ⟨3, 4⟩ 20 true true = .ok (w.body ++ (w.first ++ w.second)) ∧
        w.head = ⟨5 / 2, 15 / 8⟩ ∧ IsHead w.first ⟨0, 0⟩ (Point.onWay ⟨0, 0⟩ ⟨3, 4⟩ (5 / 2)) (15 / 8) ∧
        shadow ⟨0, 0⟩ ⟨3, 4⟩ w.first = Icc 0 (5 / 2) ∧ shadow ⟨0, 0⟩ ⟨3, 4⟩ w.body = {5 / 2} ∧
        shadow ⟨0, 0⟩ ⟨3, 4⟩ w.second = Icc (5 / 2) 5 := by
  have apart : (⟨0, 0⟩ : Point ℝ) ≠ ⟨3, 4⟩ := by simp
  have hd : Point.distance (⟨0, 0⟩ : Point ℝ) ⟨3, 4⟩ = 5 := by
    rw [Point.distance_exact]
    norm_num
  -- full heads are 40 long, but each has only half of the way, so that the line between them vanishes
  obtain ⟨w, hrun, hrow, -, -⟩ := straight_heads_fit apart 20 true true
  have hfull : Head.full 20 = ⟨40, 30⟩ := by norm_num [Head.full]
  have hfits := hrow.head
  rw [hfull, hd] at hfits
  have hlength : w.head.length = 5 / 2 := by
    rw [hfits.length]
    norm_num
  have hwidth : w.head.width = 15 / 8 := by
    have hratio := hfits.ratio
    rw [hlength, div_eq_div_iff hfits.positive.2.ne' (by norm_num)] at hratio
    norm_num at hratio
    linarith
  have hopens : w.opens = 5 / 2 := hrow.opens.trans hlength
  have hcloses : w.closes = 5 / 2 := by
    rw [hrow.closes, if_pos rfl, hd, hlength]
    norm_num
  have hbody := hrow.body.2
  obtain ⟨hhead, hfirst⟩ := hrow.first
  obtain ⟨-, hsecond⟩ := hrow.second
  rw [hopens, hcloses, Icc_self] at hbody
  rw [hopens] at hfirst hhead
  rw [hcloses, hd] at hsecond
  rw [hwidth] at hhead
  refine ⟨apart, w, hrun, ?_, hhead, hfirst, hbody, hsecond⟩
  rw [← hlength, ← hwidth]

end Outline
end NodeLink
