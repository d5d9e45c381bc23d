import NodeLink.Geometry.PathText
import NodeLink.Proofs.Number.Operations

/-!
# Geometry that does not fail

Between points of doubles every curve, every crossing with a circle and every outline can be computed. A length is
told apart from zero before anything is divided by it, and a head is at least 8 long before it is shortened.
-/

namespace NodeLink

open Scalar Value

structure Curve.IsDouble (c : Curve Value) : Prop where
  start : c.start.IsDouble
  control : c.control.IsDouble
  finish : c.finish.IsDouble

/-- A circle around a point of doubles, with a radius whose double is among the doubles. -/
structure Disc.Lies (d : Disc Value) : Prop where
  centre : d.centre.IsDouble
  radius : d.radius.Fits

/-- A circle around a point of doubles, of a size as it stands in a text. -/
structure Disc.Sized (d : Disc Value) : Prop where
  centre : d.centre.IsDouble
  radius : d.radius.IsSize

theorem Disc.Sized.lies {d : Disc Value} (h : d.Sized) : d.Lies := ⟨h.centre, h.radius.fits⟩

structure Centreline.IsDouble (c : Centreline Value) : Prop where
  start : c.start.IsDouble
  control : ∀ p ∈ c.control, p.IsDouble
  finish : c.finish.IsDouble

def PathCommand.IsDouble (c : PathCommand Value) : Prop := ∀ p ∈ c.points, p.IsDouble

def Outline.IsDouble (o : Outline Value) : Prop := ∀ c ∈ o, c.IsDouble

structure Head.IsDouble (h : Head Value) : Prop where
  length : h.length.IsDouble
  width : h.width.IsDouble

attribute [grind →] Point.IsDouble.x Point.IsDouble.y Curve.IsDouble.start Curve.IsDouble.control
  Curve.IsDouble.finish Disc.Lies.centre Disc.Lies.radius Head.IsDouble.length Head.IsDouble.width

variable {p q : Point Value} {c : Curve Value} {circle source target : Disc Value} {t u v : Value}

/-! ## Points -/

theorem Point.settle_succeeds {x y : Value} (hx : x.IsDouble) (hy : y.IsDouble) :
    Succeeds (Point.settle ⟨x, y⟩) Point.IsDouble :=
  have hp : Point.IsDouble ⟨x, y⟩ := ⟨hx, hy⟩
  ⟨_, hp.settle, hp⟩

theorem isDouble_distance (hp : p.IsDouble) (hq : q.IsDouble) : (p.distance q).IsDouble := by
  unfold Point.distance
  grind

theorem midpoint_succeeds (hp : p.IsDouble) (hq : q.IsDouble) : Succeeds (p.midpoint q).settle Point.IsDouble := by
  apply Point.settle_succeeds <;> grind

theorem direction?_succeeds (hp : p.IsDouble) (hq : q.IsDouble) :
    Succeeds (p.direction? q) fun direction => ∀ d ∈ direction, d.IsDouble := by
  apply (settle_succeeds (isDouble_distance hp hq)).bind
  intro length hlength
  apply (eq_zero_succeeds hlength).bind
  rintro (_ | _) hne
  · have hdivides := hne rfl
    apply (Point.settle_succeeds (div_of_divides (by grind) hdivides) (div_of_divides (by grind) hdivides)).bind
    intro d hd
    exact .pure (by simpa using hd)
  · exact .pure (by simp)

/-! ## Curves -/

theorem fanOut_succeeds {i n : Nat} (hi : i < moderateLimit) (hn : n < moderateLimit) :
    Succeeds (fanOut (.whole i) (.whole n)) Value.IsDouble := by
  cases n with
  | zero => exact ⟨_, rfl, isDouble_decimal 0 true 1⟩
  | succ m =>
    apply (le_succeeds (fits_of_moderate (n := m + 1) (by omega)) fits_one).bind
    rintro (_ | _) -
    · have hmiddle : ((.whole (m + 1 : Nat) - 1) / 2 : Value).IsDouble := by
        have hcount : (.whole (m + 1 : Nat) - 1 : Value) = .whole m := by
          change Value.whole ((m + 1 : Nat) - (1 : Nat)) = _
          rw [Nat.cast_succ, Nat.cast_one, Int.add_sub_cancel]
        rw [hcount]
        exact IsSize.half ⟨m, rfl, by omega⟩
      have hfits : (Value.whole i).Fits := fits_of_moderate (by omega)
      apply settle_succeeds
      unfold parallelSpread
      grind
    · exact .pure (isDouble_decimal 0 true 1)

theorem controlPoint_succeeds (hp : p.IsDouble) (hq : q.IsDouble) (hv : v.IsDouble) :
    Succeeds (controlPoint p q v) Point.IsDouble := by
  apply (midpoint_succeeds hp hq).bind
  intro mid hmid
  apply (settle_succeeds (isDouble_distance hp hq)).bind
  intro distance hdistance
  apply (eq_zero_succeeds hdistance).bind
  rintro (_ | _) hne
  · have hdivides := hne rfl
    apply (settle_succeeds (by unfold baseCurvature; grind)).bind
    intro offset hoffset
    apply (settle_succeeds (div_of_divides (by grind) hdivides)).bind
    intro sideX hx
    apply (settle_succeeds (div_of_divides (by grind) hdivides)).bind
    intro sideY hy
    apply Point.settle_succeeds <;> grind
  · exact .pure hmid

namespace Curve

theorem point_succeeds (hc : c.IsDouble) (ht : t.IsDouble) : Succeeds (c.point t) Point.IsDouble := by
  apply (settle_succeeds (by grind)).bind
  intro s hs
  apply Point.settle_succeeds <;> grind

theorem blossom_succeeds (hc : c.IsDouble) (hu : u.IsDouble) (hv : v.IsDouble) :
    Succeeds (c.blossom u v) Point.IsDouble := by
  apply (settle_succeeds (by grind)).bind
  intro a ha
  apply (settle_succeeds (by grind)).bind
  intro b hb
  apply (settle_succeeds (by grind)).bind
  intro d hd
  apply Point.settle_succeeds <;> grind

theorem between_succeeds (hc : c.IsDouble) (hu : u.IsDouble) (hv : v.IsDouble) :
    Succeeds (c.between u v) Curve.IsDouble := by
  apply (blossom_succeeds hc hu hu).bind
  intro start hstart
  apply (blossom_succeeds hc hu hv).bind
  intro control hcontrol
  apply (blossom_succeeds hc hv hv).bind
  intro finish hfinish
  exact .pure ⟨hstart, hcontrol, hfinish⟩

theorem gap_succeeds (hc : c.IsDouble) (hd : circle.Lies) (ht : t.IsDouble) :
    Succeeds (c.gap circle t) Value.IsDouble := by
  apply (point_succeeds hc ht).bind
  intro p hp
  have hdistance := isDouble_distance hp hd.centre
  apply settle_succeeds
  grind

/-- A sample so far, with how far its point is off the circle. -/
def BestIsDouble (best : Option (Value × Value)) : Prop := ∀ sample ∈ best, sample.1.IsDouble ∧ sample.2.IsDouble

theorem betterSample_succeeds (hc : c.IsDouble) (hd : circle.Lies) {best : Option (Value × Value)}
    (hbest : BestIsDouble best) (ht : t.IsDouble) : Succeeds (c.betterSample circle best t) BestIsDouble := by
  have hsome {off s : Value} (hoff : off.IsDouble) (hs : s.IsDouble) : BestIsDouble (some (off, s)) := by
    rintro sample ⟨⟩
    exact ⟨hoff, hs⟩
  apply (gap_succeeds hc hd ht).bind
  intro off hoff
  cases best with
  | none =>
    apply (compare_succeeds hoff.fits (Or.inl ⟨Binary64.infinity, rfl⟩) .less).bind
    rintro (_ | _) -
    · exact .pure (by rintro sample ⟨⟩)
    · exact .pure (hsome hoff ht)
  | some sample =>
    obtain ⟨hleast, hs⟩ := hbest sample rfl
    apply (lt_succeeds hoff.fits hleast.fits).bind
    rintro (_ | _) -
    · exact .pure (hsome hleast hs)
    · exact .pure (hsome hoff ht)

theorem isDouble_sample {i : Nat} (hi : i < 101) : (ofWhole i / ofInt 100 : Value).IsDouble :=
  isDouble_divWhole (d := 100) (by decide) (Binary64.isInf_divWhole (d := 100) (by omega) (by decide) (by decide))

theorem bestSample_succeeds (hc : c.IsDouble) (hd : circle.Lies) (inside : Inside) :
    Succeeds (c.bestSample circle { inside }) Value.IsDouble := by
  have hfold : Succeeds ((List.range 101).foldlM (fun best i => do
      c.betterSample circle best (← settle (ofWhole i / ofInt 100))) none) BestIsDouble := by
    apply Succeeds.foldlM
    · rintro sample ⟨⟩
    · intro i hi best hbest
      apply (settle_succeeds (isDouble_sample (List.mem_range.mp hi))).bind
      intro t ht
      exact betterSample_succeeds hc hd hbest ht
  apply hfold.bind
  rintro (_ | sample) hbest
  · apply Succeeds.pure
    split
    · exact isDouble_decimal 0 true 1
    · exact isDouble_decimal 10 true 1
  · exact .pure (hbest sample rfl).2

theorem halve_succeeds (hc : c.IsDouble) (hd : circle.Lies) (inside : Inside) (n : Nat) (hu : u.IsDouble)
    (hv : v.IsDouble) : Succeeds (c.halve circle inside n u v) Value.IsDouble := by
  induction n generalizing u v with
  | zero => exact settle_succeeds (by grind)
  | succ n ih =>
    apply (settle_succeeds (by grind)).bind
    intro mid hmid
    apply (point_succeeds hc hmid).bind
    intro p hp
    apply (lt_succeeds (isDouble_distance hp hd.centre).fits hd.radius).bind
    rintro near -
    exact .ite (fun _ => ih hmid hv) fun _ => ih hu hmid

theorem crossing_succeeds (hc : c.IsDouble) (hd : circle.Lies) (inside : Inside) :
    Succeeds (c.crossing circle { inside }) Value.IsDouble := by
  have hstep : (1 / ofInt 100 : Value).IsDouble := isDouble_sample (i := 1) (by decide)
  have hzero : (0.0 : Value).IsDouble := isDouble_decimal 0 true 1
  have hone : (1.0 : Value).IsDouble := isDouble_decimal 10 true 1
  apply (bestSample_succeeds hc hd inside).bind
  intro best hbest
  have hbelow := sub_left hbest hstep.fits
  have habove := add_left hbest hstep.fits
  apply (greatest_succeeds hzero.fits hbelow.fits hzero hbelow).bind
  intro lo hlo
  apply (least_succeeds hone.fits habove.fits hone habove).bind
  intro hi hhi
  exact halve_succeeds hc hd inside 20 hlo hhi

end Curve

namespace Centreline

theorem overlapping_succeeds (hs : source.Sized) (ht : target.Sized) (hv : v.IsDouble) :
    Succeeds (overlapping source target v) fun overlap => overlap = false → v.Divides := by
  apply (eq_zero_succeeds hv).bind
  rintro (_ | _) hne
  · exact (lt_succeeds hv.fits (hs.radius.fits_add ht.radius)).mono fun _ _ _ => hne rfl
  · exact .pure (by simp)

theorem straight_succeeds (hs : source.Sized) (ht : target.Sized) (hv : v.Divides) :
    Succeeds (straight source target v) Centreline.IsDouble := by
  have ha := hs.centre
  have hb := ht.centre
  have hsource := hs.radius.fits
  have htarget := ht.radius.fits
  unfold straight
  dsimp only
  apply (settle_succeeds (div_of_divides (by grind) hv)).bind
  intro ux hx
  apply (settle_succeeds (div_of_divides (by grind) hv)).bind
  intro uy hy
  apply (Point.settle_succeeds (by grind) (by grind)).bind
  intro start hstart
  apply (Point.settle_succeeds (by grind) (by grind)).bind
  intro finish hfinish
  exact .pure ⟨hstart, by simp, hfinish⟩

theorem isDouble_toCentreline (hc : c.IsDouble) : c.toCentreline.IsDouble where
  start := hc.start
  control := by simpa [Curve.toCentreline] using hc.control
  finish := hc.finish

theorem isDouble_toCurve? {line : Centreline Value} (h : line.IsDouble) : ∀ c ∈ line.toCurve?, c.IsDouble := by
  obtain ⟨start, control, finish⟩ := line
  cases control with
  | none => simp [toCurve?]
  | some p => simpa [toCurve?] using ⟨h.start, h.control p rfl, h.finish⟩

theorem bent_succeeds (hs : source.Sized) (ht : target.Sized) (hv : v.IsDouble) :
    Succeeds (bent source target v) Centreline.IsDouble := by
  have hfull : Succeeds (fullCurve source target v) Curve.IsDouble := by
    apply (controlPoint_succeeds hs.centre ht.centre hv).bind
    intro control hcontrol
    exact .pure ⟨hs.centre, hcontrol, ht.centre⟩
  apply hfull.bind
  intro c hc
  apply (c.crossing_succeeds hc hs.lies .before).bind
  intro first hfirst
  apply (c.crossing_succeeds hc ht.lies .after).bind
  intro last hlast
  apply (c.between_succeeds hc hfirst hlast).bind
  intro part hpart
  exact .pure (isDouble_toCentreline hpart)

/-- Between circles of sizes from a text there is a centreline, or they overlap. -/
theorem clipped?_gives (hs : source.Sized) (ht : target.Sized) (curved : Bool) (hv : v.IsDouble) :
    Succeeds (clipped? source target curved v) fun line => ∀ c ∈ line, c.IsDouble := by
  have hsome {line : Centreline Value} (h : line.IsDouble) : ∀ c ∈ some line, c.IsDouble := by simpa using h
  apply (settle_succeeds (isDouble_distance hs.centre ht.centre)).bind
  intro distance hdistance
  apply (overlapping_succeeds hs ht hdistance).bind
  rintro (_ | _) hne
  · cases curved with
    | true =>
      apply (bent_succeeds hs ht hv).bind
      intro line hline
      exact .pure (hsome hline)
    | false =>
      apply (straight_succeeds hs ht (hne rfl)).bind
      intro line hline
      exact .pure (hsome hline)
  · exact .pure (by simp)

end Centreline

/-! ## Outlines -/

theorem greatest_eight_succeeds (h : v.IsDouble) : Succeeds (greatest v 8.0) Value.Divides := by
  obtain ⟨x, rfl⟩ := h
  have height : Binary64.Normal (-49) (-49) 8.0 := ⟨_, _, _, rfl, by decide, le_rfl, le_rfl⟩
  by_cases hlt : x < 8.0
  · refine ⟨.real 8.0, ?_, 8.0, rfl, height.ne_zero⟩
    change Except.ok (if decide (x < 8.0) = true then Value.real 8.0 else .real x) = _
    rw [if_pos (decide_eq_true hlt)]
  · refine ⟨.real x, ?_, x, rfl, Binary64.ne_zero_of_not_lt height hlt⟩
    change Except.ok (if decide (x < 8.0) = true then Value.real 8.0 else .real x) = _
    rw [if_neg (by simpa using hlt)]

theorem Head.fitted_succeeds (hv : v.IsSize) (hu : u.IsDouble) : Succeeds (Head.fitted v u) Head.IsDouble := by
  have hfits := hv.fits
  have h40 : (40.0 : Value).Divides := ⟨40.0, rfl, rfl⟩
  apply (greatest_eight_succeeds (v := v * 2.5) (by grind)).bind
  intro long hlong
  apply (least_succeeds hlong.isDouble.fits h40.isDouble.fits hlong h40).bind
  intro length hlength
  have h6 : (6.0 : Value).IsDouble := isDouble_decimal 60 true 1
  have h30 : (30.0 : Value).IsDouble := isDouble_decimal 300 true 1
  have hwide : (v * 1.8).IsDouble := by grind
  apply (greatest_succeeds hwide.fits h6.fits hwide h6).bind
  intro wide hwide
  apply (least_succeeds hwide.fits h30.fits hwide h30).bind
  intro width hwidth
  have hwhole : Head.IsDouble ⟨length, width⟩ := ⟨hlength.isDouble, hwidth⟩
  apply (gt_zero_succeeds hu).bind
  rintro (_ | _) -
  · exact .pure hwhole
  · apply (gt_succeeds hlength.isDouble.fits hu.fits).bind
    rintro (_ | _) -
    · exact .pure hwhole
    · apply (settle_succeeds (div_of_divides hu.fits hlength)).bind
      intro scale hscale
      apply (settle_succeeds (by grind)).bind
      intro length' hlength'
      apply (settle_succeeds (by grind)).bind
      intro width' hwidth'
      exact .pure ⟨hlength', hwidth'⟩

theorem Point.isDouble_moved (hp : p.IsDouble) (hq : q.IsDouble) (hv : v.Fits) : (p.moved q v).IsDouble := by
  constructor
  · change (p.x + v * q.x).IsDouble
    grind
  · change (p.y + v * q.y).IsDouble
    grind

theorem PathCommand.settle_succeeds {command : PathCommand Value} (h : command.IsDouble) :
    Succeeds command.settle PathCommand.IsDouble := by
  have settles {p : Point Value} (hp : p ∈ command.points) : p.settle = .ok p := (h p hp).settle
  refine ⟨command, ?_, h⟩
  cases command with
  | move p => rw [settle, settles (by simp [points])]; rfl
  | line p => rw [settle, settles (by simp [points])]; rfl
  | quadratic c p => rw [settle, settles (by simp [points]), settles (by simp [points])]; rfl
  | cubic c d p =>
    rw [settle, settles (by simp [points]), settles (by simp [points]), settles (by simp [points])]
    rfl
  | close => rfl

namespace Outline

theorem settle_succeeds {o : Outline Value} (h : o.IsDouble) : Succeeds (settle o) Outline.IsDouble :=
  Succeeds.mapM fun command hcommand => PathCommand.settle_succeeds (h command hcommand)

theorem isDouble_append {o o' : Outline Value} (h : o.IsDouble) (h' : o'.IsDouble) : Outline.IsDouble (o ++ o') := by
  intro command hcommand
  obtain hcommand | hcommand := List.mem_append.mp hcommand
  · exact h command hcommand
  · exact h' command hcommand

theorem isDouble_band {side : Point Value} (hp : p.IsDouble) (hq : q.IsDouble) (hside : side.IsDouble) :
    (band p q side).IsDouble := by
  have hfirst (r : Point Value) (hr : r.IsDouble) : (r.moved side 1.0).IsDouble :=
    Point.isDouble_moved hr hside (isDouble_decimal 10 true 1).fits
  have hsecond (r : Point Value) (hr : r.IsDouble) : (r.moved side (-1)).IsDouble :=
    Point.isDouble_moved hr hside fits_minus_one
  simp [Outline.IsDouble, PathCommand.IsDouble, band, PathCommand.points, hfirst, hsecond, hp, hq]

theorem triangle_succeeds (hp : p.IsDouble) (hq : q.IsDouble) (hv : v.IsDouble) :
    Succeeds (triangle p q v) Outline.IsDouble := by
  apply (direction?_succeeds hq hp).bind
  rintro (_ | u) hu
  · exact .pure (by simp [Outline.IsDouble])
  · have hu := hu u rfl
    apply (Point.settle_succeeds (by grind) (by grind)).bind
    intro side hside
    have hfirst := Point.isDouble_moved hq hside (isDouble_decimal 10 true 1).fits
    have hsecond := Point.isDouble_moved hq hside fits_minus_one
    apply Succeeds.pure
    simp [Outline.IsDouble, PathCommand.IsDouble, PathCommand.points, hp, hfirst, hsecond]

theorem heads_succeeds {start finish bodyStart bodyEnd : Point Value} (hs : start.IsDouble) (hf : finish.IsDouble)
    (hbs : bodyStart.IsDouble) (hbe : bodyEnd.IsDouble) (hv : v.IsDouble) (startArrow endArrow : Bool) :
    Succeeds (heads start finish bodyStart bodyEnd v startArrow endArrow) Outline.IsDouble := by
  have hnone : Succeeds (pure [] : Except Fault (Outline Value)) Outline.IsDouble := .pure (by simp [Outline.IsDouble])
  unfold heads
  dsimp only
  apply Succeeds.branch (fun _ => triangle_succeeds hs hbs hv) fun _ => hnone
  intro first hfirst
  apply Succeeds.branch (fun _ => triangle_succeeds hf hbe hv) fun _ => hnone
  intro second hsecond
  exact .pure (isDouble_append hfirst hsecond)

theorem share_succeeds (h : v.IsDouble) (startArrow endArrow : Bool) :
    Succeeds (Scalar.settle (v / headCount startArrow endArrow)) Value.IsDouble := by
  apply Value.settle_succeeds
  unfold headCount
  split
  · exact half h
  · exact div_whole (n := 1) h (by decide) (lt_moderateLimit (by decide))

theorem arrow_succeeds (hp : p.IsDouble) (hq : q.IsDouble) (hv : v.IsSize) (startArrow endArrow : Bool) :
    Succeeds (arrow p q v startArrow endArrow) Outline.IsDouble := by
  have hthick := hv.fits
  apply (direction?_succeeds hp hq).bind
  rintro (_ | u) hu
  · exact .pure (by simp [Outline.IsDouble])
  have hu := hu u rfl
  apply (share_succeeds (isDouble_distance hp hq) startArrow endArrow).bind
  intro available havailable
  apply (Head.fitted_succeeds hv havailable).bind
  intro head hhead
  have hway := hu.scaled hhead.length
  have hstart := Point.isDouble_moved hp hway (isDouble_decimal 10 true 1).fits
  have hend := Point.isDouble_moved hq hway fits_minus_one
  dsimp only
  apply Succeeds.branch (fun _ => ⟨_, hstart.settle, hstart⟩) fun _ => .pure hp
  intro bodyStart hbs
  apply Succeeds.branch (fun _ => ⟨_, hend.settle, hend⟩) fun _ => .pure hq
  intro bodyEnd hbe
  apply (Point.settle_succeeds (by grind) (by grind)).bind
  intro side hside
  apply (settle_succeeds (isDouble_band hbs hbe hside)).bind
  intro body hbody
  apply (heads_succeeds hp hq hbs hbe hhead.width startArrow endArrow).bind
  intro tips htips
  exact .pure (isDouble_append hbody htips)

theorem across_succeeds (hp : p.IsDouble) (hq : q.IsDouble) : Succeeds (across p q) Point.IsDouble := by
  apply (direction?_succeeds hp hq).bind
  rintro (_ | u) hu
  · exact .pure ⟨isDouble_decimal 0 true 1, isDouble_decimal 10 true 1⟩
  · have hu := hu u rfl
    apply Point.settle_succeeds <;> grind

theorem acrossMiddle_succeeds (hp : p.IsDouble) (hq : q.IsDouble) : Succeeds (acrossMiddle p q) Point.IsDouble := by
  apply (midpoint_succeeds hp hq).bind
  intro mean hmean
  apply (Value.settle_succeeds (by grind)).bind
  intro length hlength
  apply (gt_zero_succeeds hlength).bind
  rintro (_ | _) hne
  · exact .pure hp
  · have hdivides := hne rfl
    exact Point.settle_succeeds (div_of_divides (by grind) hdivides) (div_of_divides (by grind) hdivides)

theorem isDouble_shifted (hp : p.IsDouble) (hq : q.IsDouble) (hu : u.Fits) (hv : v.IsDouble) :
    (shifted p q u v).IsDouble := by
  constructor
  · change (p.x + u * q.x * v).IsDouble
    grind
  · change (p.y + u * q.y * v).IsDouble
    grind

theorem ribbon_succeeds (hc : c.IsDouble) (hv : v.IsSize) : Succeeds (ribbon c v) Outline.IsDouble := by
  apply (Value.settle_succeeds hv.half).bind
  intro half hhalf
  apply (across_succeeds hc.start hc.control).bind
  intro atStart hs
  apply (across_succeeds hc.control hc.finish).bind
  intro atEnd he
  apply (acrossMiddle_succeeds hs he).bind
  intro atControl hm
  apply settle_succeeds
  have side {p q : Point Value} (hp : p.IsDouble) (hq : q.IsDouble) :
      (shifted p q 1 half).IsDouble ∧ (shifted p q (-1) half).IsDouble :=
    ⟨isDouble_shifted hp hq fits_one hhalf, isDouble_shifted hp hq fits_minus_one hhalf⟩
  simp [Outline.IsDouble, PathCommand.IsDouble, PathCommand.points, side, hs, he, hm, hc.start, hc.control, hc.finish]

theorem curvedArrow_succeeds (hc : c.IsDouble) (hv : v.IsSize) (startArrow endArrow : Bool) :
    Succeeds (curvedArrow c v startArrow endArrow) Outline.IsDouble := by
  apply (share_succeeds (isDouble_distance hc.start hc.finish) startArrow endArrow).bind
  intro available havailable
  apply (Head.fitted_succeeds hv havailable).bind
  intro head hhead
  dsimp only
  apply Succeeds.branch (fun _ => c.crossing_succeeds hc ⟨hc.start, hhead.length.fits⟩ .before) fun _ =>
    .pure (isDouble_decimal 0 true 1)
  intro first hfirst
  apply Succeeds.branch (fun _ => c.crossing_succeeds hc ⟨hc.finish, hhead.length.fits⟩ .after) fun _ =>
    .pure (isDouble_decimal 10 true 1)
  intro last hlast
  apply (c.between_succeeds hc hfirst hlast).bind
  intro body hbody
  apply (ribbon_succeeds hbody hv).bind
  intro band hband
  apply (heads_succeeds hc.start hc.finish hbody.start hbody.finish hhead.width startArrow endArrow).bind
  intro tips htips
  exact .pure (isDouble_append hband htips)

theorem ofCentreline_succeeds {line : Centreline Value} (h : line.IsDouble) (kind : EdgeKind) (hv : v.IsSize) :
    Succeeds (ofCentreline line kind v) Outline.IsDouble := by
  unfold ofCentreline
  cases hcurve : line.toCurve? with
  | some curve =>
    have hc := Centreline.isDouble_toCurve? h curve hcurve
    exact .ite (fun _ => curvedArrow_succeeds hc hv _ _) fun _ => ribbon_succeeds hc hv
  | none =>
    exact .ite (fun _ => arrow_succeeds h.start h.finish hv _ _) fun _ => arrow_succeeds h.start h.finish hv _ _

end Outline

end NodeLink
