import NodeLink.Geometry.Point
import NodeLink.Value

/-!
# Values that are doubles

Sums, differences and products of doubles are doubles. A whole number whose double is among the doubles does
as well where it meets a double, and the way between two such numbers is among the doubles too.
-/

namespace NodeLink

namespace Value

def IsDouble (v : Value) : Prop := ∃ x, v = .real x

/-- A number among the doubles. -/
def Fits (v : Value) : Prop := v.IsDouble ∨ ∃ n, v = .whole n ∧ wholeFits n = true

/-- A number whose double is among the doubles. -/
def FitsTwice (v : Value) : Prop := v.IsDouble ∨ ∃ n, v = .whole n ∧ wholeFits (2 * n) = true

theorem isDouble_real (x : Float) : (real x).IsDouble := ⟨x, rfl⟩

theorem IsDouble.settle {v : Value} (h : v.IsDouble) : v.settle = .ok v := by
  obtain ⟨x, rfl⟩ := h
  rfl

theorem IsDouble.add {a b : Value} (ha : a.IsDouble) (hb : b.IsDouble) : (a + b).IsDouble := by
  obtain ⟨x, rfl⟩ := ha
  obtain ⟨y, rfl⟩ := hb
  exact ⟨x + y, rfl⟩

theorem IsDouble.sub {a b : Value} (ha : a.IsDouble) (hb : b.IsDouble) : (a - b).IsDouble := by
  obtain ⟨x, rfl⟩ := ha
  obtain ⟨y, rfl⟩ := hb
  exact ⟨x - y, rfl⟩

theorem IsDouble.mul {a b : Value} (ha : a.IsDouble) (hb : b.IsDouble) : (a * b).IsDouble := by
  obtain ⟨x, rfl⟩ := ha
  obtain ⟨y, rfl⟩ := hb
  exact ⟨x * y, rfl⟩

theorem wholeFits_of_twice {n : Int} (h : wholeFits (2 * n) = true) : wholeFits n = true := by
  rw [wholeFits, decide_eq_true_eq] at h ⊢
  omega

theorem wholeFits_of_lt {n : Int} (h : n.natAbs < Nat.pow 2 53) : wholeFits n = true := by
  have hlimit : Nat.pow 2 53 ≤ Binary64.wholeLimit := by decide +kernel
  exact decide_eq_true (Nat.lt_of_lt_of_le h hlimit)

theorem withReal_of_fits {n : Int} (h : wholeFits n = true) (f : Float → Value) :
    withReal n f = f (Binary64.ofInt n) := by
  rw [withReal, if_pos h]

theorem FitsTwice.fits {v : Value} (h : v.FitsTwice) : v.Fits := by
  obtain h | ⟨n, rfl, hn⟩ := h
  · exact Or.inl h
  · exact Or.inr ⟨n, rfl, wholeFits_of_twice hn⟩

theorem FitsTwice.add {a b : Value} (ha : a.FitsTwice) (hb : b.IsDouble) : (a + b).IsDouble := by
  obtain ⟨y, rfl⟩ := hb
  obtain ⟨x, rfl⟩ | ⟨n, rfl, hn⟩ := ha.fits
  · exact ⟨x + y, rfl⟩
  · refine ⟨Binary64.ofInt n + y, ?_⟩
    change Value.add (.whole n) (.real y) = _
    simp only [Value.add, combine, withReal_of_fits hn]

theorem FitsTwice.sub {a b : Value} (ha : a.FitsTwice) (hb : b.FitsTwice) : (a - b).Fits := by
  obtain ⟨x, rfl⟩ | ⟨m, rfl, hm⟩ := ha
  · obtain ⟨y, rfl⟩ | ⟨n, rfl, hn⟩ := hb.fits
    · exact Or.inl (isDouble_real _)
    · refine Or.inl ⟨x - Binary64.ofInt n, ?_⟩
      change Value.sub (.real x) (.whole n) = _
      simp only [Value.sub, combine, withReal_of_fits hn]
  · obtain ⟨y, rfl⟩ | ⟨n, rfl, hn⟩ := hb
    · refine Or.inl ⟨Binary64.ofInt m - y, ?_⟩
      change Value.sub (.whole m) (.real y) = _
      simp only [Value.sub, combine, withReal_of_fits (wholeFits_of_twice hm)]
    · refine Or.inr ⟨m - n, rfl, ?_⟩
      rw [wholeFits, decide_eq_true_eq] at hm hn ⊢
      omega

theorem FitsTwice.two_mul {v : Value} (h : v.FitsTwice) : (whole 2 * v).Fits := by
  have htwo : wholeFits 2 = true := wholeFits_of_lt (by decide)
  obtain ⟨x, rfl⟩ | ⟨n, rfl, hn⟩ := h
  · refine Or.inl ⟨Binary64.ofInt 2 * x, ?_⟩
    change mul (.whole 2) (.real x) = _
    simp only [mul, combine, withReal_of_fits htwo]
  · exact Or.inr ⟨2 * n, rfl, hn⟩

theorem real_mul_two (x : Float) : (real x * whole 2 : Value) = real (x * Binary64.ofInt 2) := by
  have htwo : wholeFits 2 = true := wholeFits_of_lt (by decide)
  change mul (.real x) (.whole 2) = _
  simp only [mul, combine, withReal_of_fits htwo]

theorem Fits.neg {v : Value} (h : v.Fits) : v.neg.Fits := by
  obtain ⟨x, rfl⟩ | ⟨n, rfl, hn⟩ := h
  · exact Or.inl (isDouble_real _)
  · exact Or.inr ⟨-n, rfl, by rwa [wholeFits, Int.natAbs_neg]⟩

theorem Fits.hypot {a b : Value} (ha : a.Fits) (hb : b.Fits) : (Scalar.hypot a b).IsDouble := by
  have measured {v : Value} (hv : v.Fits) (f : Float → Value) : ∃ x, v.measured f = f x := by
    obtain ⟨x, rfl⟩ | ⟨n, rfl, hn⟩ := hv
    · exact ⟨x, rfl⟩
    · exact ⟨_, withReal_of_fits hn f⟩
  obtain ⟨x, hx⟩ := measured ha fun x => b.measured fun y => .real (Number.hypotFloat x y)
  obtain ⟨y, hy⟩ := measured hb fun y => .real (Number.hypotFloat x y)
  exact ⟨_, hx.trans hy⟩

theorem Fits.div {v : Value} (hv : v.Fits) {y : Float} (hy : (y == 0) = false) : (v / .real y).IsDouble := by
  have hdiv (x : Float) : (divReal x y).IsDouble := by
    rw [divReal, hy]
    exact isDouble_real _
  obtain ⟨x, rfl⟩ | ⟨n, rfl, hn⟩ := hv
  · exact hdiv x
  · have hwhole : Value.div (.whole n) (.real y) = divReal (Binary64.ofInt n) y := by
      simp only [Value.div, combine, withReal_of_fits hn]
    obtain ⟨z, hz⟩ := hdiv (Binary64.ofInt n)
    exact ⟨z, hwhole.trans hz⟩

theorem isDouble_periodic {x : Float} (h : x.isInf = false) (f : Float → Float) : (periodic f x).IsDouble := by
  rw [periodic, h]
  exact isDouble_real _

end Value

structure Point.IsDouble (p : Point Value) : Prop where
  x : p.x.IsDouble
  y : p.y.IsDouble

structure Point.FitsTwice (p : Point Value) : Prop where
  x : p.x.FitsTwice
  y : p.y.FitsTwice

theorem Point.IsDouble.fitsTwice {p : Point Value} (h : p.IsDouble) : p.FitsTwice := ⟨Or.inl h.x, Or.inl h.y⟩

theorem Point.settle_of_fits {p : Point Value} (hx : p.x.Fits) (hy : p.y.Fits) : p.settle = .ok p := by
  obtain ⟨x, y⟩ := p
  obtain ⟨x, rfl⟩ | ⟨m, rfl, -⟩ := hx <;> obtain ⟨y, rfl⟩ | ⟨n, rfl, -⟩ := hy <;> rfl

theorem Point.IsDouble.settle {p : Point Value} (h : p.IsDouble) : p.settle = .ok p :=
  settle_of_fits (Or.inl h.x) (Or.inl h.y)

theorem Point.IsDouble.scaled {p : Point Value} (h : p.IsDouble) {factor : Value} (hf : factor.IsDouble) :
    (p.scaled factor).IsDouble := ⟨h.x.mul hf, h.y.mul hf⟩

end NodeLink
