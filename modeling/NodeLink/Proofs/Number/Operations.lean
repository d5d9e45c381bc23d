import NodeLink.Proofs.Number.Ranges
import NodeLink.Proofs.Number.Values
import NodeLink.Proofs.Outcome

/-!
# Operations that do not fail

A double beside a number whose double is among the doubles gives a double again, and any two such numbers can be
compared. What has been told apart from zero divides. Whole numbers that are not too large can be halved, and as
lengths of texts they can be multiplied by the size of a letter.
-/

namespace NodeLink

namespace Value

variable {a b v : Value}

/-! ## Doubles beside numbers that fit -/

theorem IsDouble.fits (h : v.IsDouble) : v.Fits := Or.inl h

/-- An operation that combines a double with a number beside it, on either side. -/
theorem isDouble_combined (op : Value → Value → Value) (f : Float → Float → Float)
    (hreal : ∀ x y, op (.real x) (.real y) = .real (f x y))
    (hleft : ∀ x n, op (.real x) (.whole n) = withReal n fun y => .real (f x y))
    (hright : ∀ n y, op (.whole n) (.real y) = withReal n fun x => .real (f x y)) :
    (a.IsDouble → b.Fits → (op a b).IsDouble) ∧ (a.Fits → b.IsDouble → (op a b).IsDouble) := by
  constructor
  · rintro ⟨x, rfl⟩ (⟨y, rfl⟩ | ⟨n, rfl, hn⟩)
    · exact ⟨_, hreal x y⟩
    · exact ⟨_, (hleft x n).trans (withReal_of_fits hn _)⟩
  · rintro (⟨x, rfl⟩ | ⟨n, rfl, hn⟩) ⟨y, rfl⟩
    · exact ⟨_, hreal x y⟩
    · exact ⟨_, (hright n y).trans (withReal_of_fits hn _)⟩

theorem add_left (ha : a.IsDouble) (hb : b.Fits) : (a + b).IsDouble :=
  (isDouble_combined add (· + ·) (fun _ _ => rfl) (fun _ _ => rfl) fun _ _ => rfl).1 ha hb

theorem add_right (ha : a.Fits) (hb : b.IsDouble) : (a + b).IsDouble :=
  (isDouble_combined add (· + ·) (fun _ _ => rfl) (fun _ _ => rfl) fun _ _ => rfl).2 ha hb

theorem sub_left (ha : a.IsDouble) (hb : b.Fits) : (a - b).IsDouble :=
  (isDouble_combined sub (· - ·) (fun _ _ => rfl) (fun _ _ => rfl) fun _ _ => rfl).1 ha hb

theorem sub_right (ha : a.Fits) (hb : b.IsDouble) : (a - b).IsDouble :=
  (isDouble_combined sub (· - ·) (fun _ _ => rfl) (fun _ _ => rfl) fun _ _ => rfl).2 ha hb

theorem mul_left (ha : a.IsDouble) (hb : b.Fits) : (a * b).IsDouble :=
  (isDouble_combined mul (· * ·) (fun _ _ => rfl) (fun _ _ => rfl) fun _ _ => rfl).1 ha hb

theorem mul_right (ha : a.Fits) (hb : b.IsDouble) : (a * b).IsDouble :=
  (isDouble_combined mul (· * ·) (fun _ _ => rfl) (fun _ _ => rfl) fun _ _ => rfl).2 ha hb

theorem isDouble_neg (h : v.IsDouble) : (-v).IsDouble := by
  obtain ⟨x, rfl⟩ := h
  exact ⟨-x, rfl⟩

theorem isDouble_magnitude (h : v.IsDouble) : (Scalar.magnitude v).IsDouble := by
  obtain ⟨x, rfl⟩ := h
  exact ⟨x.abs, rfl⟩

theorem isDouble_decimal (m : Nat) (negative : Bool) (e : Nat) :
    (OfScientific.ofScientific m negative e : Value).IsDouble := ⟨_, rfl⟩

theorem isDouble_pi : (Scalar.pi : Value).IsDouble := ⟨_, rfl⟩

theorem isDouble_hypot (ha : a.Fits) (hb : b.Fits) : (Scalar.hypot a b).IsDouble := ha.hypot hb

theorem fits_whole {n : Int} (h : n.natAbs < Nat.pow 2 53) : (Value.whole n).Fits :=
  Or.inr ⟨n, rfl, wholeFits_of_lt h⟩

theorem fits_zero : (0 : Value).Fits := fits_whole (by decide)
theorem fits_one : (1 : Value).Fits := fits_whole (by decide)
theorem fits_two : (2 : Value).Fits := fits_whole (by decide)
theorem fits_minus_one : (-1 : Value).Fits := fits_whole (by decide)

attribute [grind ←] IsDouble.fits add_left add_right sub_left sub_right mul_left mul_right isDouble_neg
  isDouble_magnitude isDouble_decimal isDouble_pi isDouble_hypot fits_one fits_two fits_minus_one

theorem Fits.settle (h : v.Fits) : Scalar.settle v = .ok v := by
  obtain ⟨x, rfl⟩ | ⟨n, rfl, -⟩ := h <;> rfl

theorem settle_succeeds (h : v.IsDouble) : Succeeds (Scalar.settle v) IsDouble := ⟨v, h.fits.settle, h⟩

/-! ## Comparing -/

theorem compare_succeeds (ha : a.Fits) (hb : b.Fits) (how : Comparison) :
    Succeeds (Scalar.compare how a b) fun _ => True := by
  obtain ⟨x, rfl⟩ | ⟨m, rfl, -⟩ := ha <;> obtain ⟨y, rfl⟩ | ⟨n, rfl, -⟩ := hb <;> exact ⟨_, rfl, trivial⟩

theorem eq_succeeds (ha : a.Fits) (hb : b.Fits) : Succeeds (Scalar.eq a b) fun _ => True := by
  obtain ⟨x, rfl⟩ | ⟨m, rfl, -⟩ := ha <;> obtain ⟨y, rfl⟩ | ⟨n, rfl, -⟩ := hb <;> exact ⟨_, rfl, trivial⟩

theorem lt_succeeds (ha : a.Fits) (hb : b.Fits) : Succeeds (Scalar.lt a b) fun _ => True :=
  compare_succeeds ha hb .less

theorem le_succeeds (ha : a.Fits) (hb : b.Fits) : Succeeds (Scalar.le a b) fun _ => True :=
  compare_succeeds ha hb .atMost

theorem gt_succeeds (ha : a.Fits) (hb : b.Fits) : Succeeds (Scalar.gt a b) fun _ => True :=
  compare_succeeds ha hb .greater

theorem least_succeeds {P : Value → Prop} (ha : a.Fits) (hb : b.Fits) (pa : P a) (pb : P b) :
    Succeeds (Scalar.least a b) P := by
  apply (lt_succeeds hb ha).bind
  rintro (_ | _) -
  · exact .pure pa
  · exact .pure pb

theorem greatest_succeeds {P : Value → Prop} (ha : a.Fits) (hb : b.Fits) (pa : P a) (pb : P b) :
    Succeeds (Scalar.greatest a b) P := by
  apply (gt_succeeds hb ha).bind
  rintro (_ | _) -
  · exact .pure pa
  · exact .pure pb

/-! ## Dividing -/

/-- A double that is not zero. -/
def Divides (v : Value) : Prop := ∃ x, v = .real x ∧ (x == 0) = false

theorem Divides.isDouble (h : v.Divides) : v.IsDouble := by
  obtain ⟨x, rfl, -⟩ := h
  exact ⟨x, rfl⟩

theorem div_of_divides (ha : a.Fits) (hb : b.Divides) : (a / b).IsDouble := by
  obtain ⟨y, rfl, hy⟩ := hb
  exact ha.div hy

theorem ne_zero_of_compareWhole? {x : Float} (h : Number.compareWhole? 0 x ≠ some .eq) : (x == 0) = false := by
  cases hx : x == 0 with
  | false => rfl
  | true => exact absurd (Binary64.compareWhole?_zero hx) h

theorem eq_zero_succeeds (h : v.IsDouble) : Succeeds (Scalar.eq v 0) fun equal => equal = false → v.Divides := by
  obtain ⟨x, rfl⟩ := h
  refine ⟨_, rfl, fun hne => ⟨x, rfl, ne_zero_of_compareWhole? fun heq => ?_⟩⟩
  change (Number.compareWhole? 0 x == some .eq) = false at hne
  rw [heq] at hne
  cases hne

theorem le_zero_succeeds (h : v.IsDouble) : Succeeds (Scalar.le v 0) fun below => below = false → v.Divides := by
  obtain ⟨x, rfl⟩ := h
  refine ⟨_, rfl, fun hne => ⟨x, rfl, ne_zero_of_compareWhole? fun heq => ?_⟩⟩
  change (Number.compareWhole? 0 x == some .gt || Number.compareWhole? 0 x == some .eq) = false at hne
  rw [heq] at hne
  cases hne

theorem gt_zero_succeeds (h : v.IsDouble) : Succeeds (Scalar.gt v 0) fun above => above = true → v.Divides := by
  obtain ⟨x, rfl⟩ := h
  refine ⟨_, rfl, fun hgt => ⟨x, rfl, ne_zero_of_compareWhole? fun heq => ?_⟩⟩
  change (Number.compareWhole? 0 x == some .lt) = true at hgt
  rw [heq] at hgt
  cases hgt

/-! ## Whole numbers that are not too large -/

/-- Below this limit whole numbers have their doubles, and so has what a drawing computes from them. -/
def moderateLimit : Nat := Nat.pow 10 300

theorem moderateLimit_bounds :
    100 ≤ moderateLimit ∧ moderateLimit ≤ 2 ^ 997 ∧ 2 * moderateLimit ≤ 2 ^ 999 ∧
      100 * moderateLimit ≤ Binary64.wholeLimit := by
  decide +kernel

theorem lt_moderateLimit {n : Nat} (h : n < 100) : n < moderateLimit := h.trans_le moderateLimit_bounds.1

theorem lt_two_pow_of_moderate {n : Nat} (h : n < moderateLimit) : n < 2 ^ 997 :=
  h.trans_le moderateLimit_bounds.2.1

theorem lt_two_pow_of_twice {n : Nat} (h : n < 2 * moderateLimit) : n < 2 ^ 999 :=
  h.trans_le moderateLimit_bounds.2.2.1

theorem wholeFits_of_moderate {n : Nat} (h : n < 100 * moderateLimit) : wholeFits n = true := by
  refine decide_eq_true ?_
  rw [Int.natAbs_natCast]
  exact h.trans_le moderateLimit_bounds.2.2.2

theorem fits_of_moderate {n : Nat} (h : n < 100 * moderateLimit) : (Value.whole n).Fits :=
  Or.inr ⟨n, rfl, wholeFits_of_moderate h⟩

theorem normal_of_moderate {n : Nat} (hn : n ≠ 0) (h : n < moderateLimit) :
    Binary64.Normal (-52) 945 (Binary64.ofInt n) :=
  Binary64.normal_ofInt hn (lt_two_pow_of_moderate h) (by decide) (by decide)

theorem below_of_moderate {n : Nat} (h : n < moderateLimit) : Binary64.Below 945 (Binary64.ofInt n) :=
  Binary64.below_ofInt (lt_two_pow_of_moderate h) (by decide) (by decide)

theorem div_whole (ha : a.IsDouble) {n : Nat} (hn : n ≠ 0) (h : n < moderateLimit) : (a / .whole n).IsDouble := by
  obtain ⟨x, rfl⟩ := ha
  have hfits : wholeFits n = true := wholeFits_of_moderate (by omega)
  have hne := (normal_of_moderate hn h).ne_zero
  refine ⟨x / Binary64.ofInt n, ?_⟩
  change Value.div (.real x) (.whole n) = _
  simp only [Value.div, combine, withReal_of_fits hfits, divReal, hne]
  rfl

theorem half (h : v.IsDouble) : (v / 2).IsDouble := div_whole (n := 2) h (by decide) (lt_moderateLimit (by decide))

theorem third (h : v.IsDouble) : (v / 3).IsDouble := div_whole (n := 3) h (by decide) (lt_moderateLimit (by decide))

attribute [grind ←] half third

theorem isDouble_divWhole {n d : Int} (hd : d ≠ 0) (hq : (Number.divWhole n d).isInf = false) :
    (Value.whole n / .whole d).IsDouble := by
  change (divWhole n d).IsDouble
  unfold divWhole
  dsimp only
  rw [if_neg hd, hq]
  exact isDouble_real _

/-! ## Sizes and sizes of letters -/

/-- A size as it stands in a text: a whole number that is not too large. -/
def IsSize (v : Value) : Prop := ∃ n : Nat, v = .whole n ∧ n < moderateLimit

theorem IsSize.fits (h : v.IsSize) : v.Fits := by
  obtain ⟨n, rfl, hn⟩ := h
  exact fits_of_moderate (by omega)

theorem IsSize.fits_add (ha : a.IsSize) (hb : b.IsSize) : (a + b).Fits := by
  obtain ⟨m, rfl, hm⟩ := ha
  obtain ⟨n, rfl, hn⟩ := hb
  exact fits_of_moderate (n := m + n) (by omega)

theorem IsSize.half (h : v.IsSize) : (v / 2).IsDouble := by
  obtain ⟨n, rfl, hn⟩ := h
  exact isDouble_divWhole (by decide) (Binary64.isInf_half (lt_two_pow_of_moderate hn) (by decide))

theorem IsSize.fits_strip (h : v.IsSize) : (v * 2 + 12).Fits := by
  obtain ⟨n, rfl, hn⟩ := h
  have hlimit := moderateLimit_bounds.1
  exact fits_of_moderate (n := n * 2 + 12) (by omega)

/-- The size of letters: a double, or a whole number up to 16. -/
def IsFontSize (v : Value) : Prop := v.IsDouble ∨ ∃ n : Nat, v = .whole n ∧ n ≤ 16

theorem IsFontSize.fits (h : v.IsFontSize) : v.Fits := by
  obtain h | ⟨n, rfl, hn⟩ := h
  · exact h.fits
  · exact fits_whole (by rw [Int.natAbs_natCast]; exact hn.trans_lt (by decide))

theorem IsFontSize.div_whole (h : v.IsFontSize) {d : Nat} (hd : d ≠ 0) (hsmall : d ≤ 16) :
    (v / .whole d).IsDouble := by
  obtain h | ⟨n, rfl, hn⟩ := h
  · exact Value.div_whole h hd (lt_moderateLimit (by omega))
  · refine isDouble_divWhole (by exact_mod_cast hd) (Binary64.isInf_divWhole ?_ hd ?_)
    · omega
    · omega

theorem IsFontSize.half (h : v.IsFontSize) : (v / 2).IsDouble := h.div_whole (d := 2) (by decide) (by decide)

theorem IsFontSize.third (h : v.IsFontSize) : (v / 3).IsDouble := h.div_whole (d := 3) (by decide) (by decide)

theorem IsFontSize.fits_mul (h : v.IsFontSize) {n : Nat} (hn : n < moderateLimit) :
    (Scalar.ofWhole n * v).Fits := by
  obtain h | ⟨m, rfl, hm⟩ := h
  · exact (mul_right (fits_of_moderate (by omega)) h).fits
  · refine fits_of_moderate (n := n * m) ?_
    calc n * m ≤ n * 16 := Nat.mul_le_mul_left n hm
      _ < 100 * moderateLimit := by omega

theorem divides_of_length {n : Nat} (hn : n ≠ 0) (h : n < moderateLimit) :
    (Scalar.ofWhole n * 0.6 : Value).Divides := by
  have hfits : wholeFits n = true := wholeFits_of_moderate (by omega)
  have hshare : Binary64.Normal (-53) (-53) 0.6 := ⟨_, _, _, rfl, by decide, le_rfl, le_rfl⟩
  have hproduct := (normal_of_moderate hn h).mul hshare (by decide) (by decide)
  refine ⟨Binary64.ofInt n * 0.6, ?_, hproduct.ne_zero⟩
  change Value.mul (.whole n) (.real 0.6) = _
  simp only [Value.mul, combine, withReal_of_fits hfits]

end Value
end NodeLink
