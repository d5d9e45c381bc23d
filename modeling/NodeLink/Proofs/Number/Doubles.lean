import Mathlib
import NodeLink.Number.Basic

/-!
# Products of doubles

A double is zero, infinite, no number, or a sign with `m * 2 ^ e`, where `m` has 53 bits unless `e` is the least
exponent. A product is the exact one rounded to such a number. So the square of a double that is not below 1
is not zero, and a product of doubles that are not too large is not infinite.
-/

namespace NodeLink.Binary64

def IsFinite (x : Float) : Prop := ∃ neg m e, view x = .finite neg m e

/-- The number that a finite double stands for. -/
noncomputable def toReal (x : Float) : ℝ :=
  match view x with
  | .finite neg m e => (if neg then -1 else 1) * m * ((2 : ℕ) : ℝ) ^ e
  | _ => 0

open Float.Model Float.Model.UnpackedFloat

/-- The form in which a double stands for `m * 2 ^ e`. -/
structure Canonical (m : ℕ) (e : ℤ) : Prop where
  below : m < 2 ^ 53
  least : -1074 ≤ e
  full : 2 ^ 52 ≤ m ∨ e = -1074

/-! ## Rounding -/

theorem targetExponent_eq (m : ℕ) (e : ℤ) :
    Format.binary64.targetExponent (totalExponent m e) = max (m.log2 + e - 52) (-1074) := by
  have hmin : Format.binary64.minExponent = -1074 := by decide
  rw [Format.targetExponent, hmin, totalExponent, Format.mantissaBits]
  congr 1
  push_cast
  omega

theorem mantissa_shiftRight (em : ExtendedMantissa) (k : ℕ) : (em >>> k).mantissa = em.mantissa / 2 ^ k := by
  change (k.repeat ExtendedMantissa.shiftRightOne em).mantissa = _
  induction k with
  | zero => exact (Nat.div_one _).symm
  | succ k ih =>
    change (k.repeat ExtendedMantissa.shiftRightOne em).mantissa / 2 = _
    rw [ih, Nat.div_div_eq_div_mul, ← Nat.pow_succ]

theorem roundedMantissa_near (em : ExtendedMantissa) :
    em.mantissa ≤ em.roundedMantissa ∧ em.roundedMantissa ≤ em.mantissa + 1 := by
  obtain ⟨m, round, sticky⟩ := em
  cases round <;> cases sticky <;>
    simp only [ExtendedMantissa.roundedMantissa, ExtendedMantissa.accuracy, Accuracy.roundToNearestEven] <;>
    omega

/-- A number of enough bits is shifted to the exponent of a double and rounded to 53 bits there. -/
theorem shift_rounds {m : ℕ} {e : ℤ} (accuracy : Accuracy) (hm : m ≠ 0) (wide : 52 ≤ m.log2 ∨ e ≤ -1074) :
    let first := shiftToTargetExponent Format.binary64 m e accuracy
    first.2 = max (m.log2 + e - 52) (-1074) ∧ first.1.roundedMantissa ≤ 2 ^ 53 ∧
      (-1022 ≤ m.log2 + e → 2 ^ 52 ≤ first.1.roundedMantissa) := by
  intro first
  obtain ⟨k, hk⟩ : ∃ k : ℕ, max (m.log2 + e - 52) (-1074) = e + k :=
    ⟨(max (m.log2 + e - 52) (-1074) - e).toNat, by omega⟩
  have hfirst : first = (ExtendedMantissa.ofMantissaAndAccuracy m accuracy >>> k, e + k) := by
    simp only [first, shiftToTargetExponent, shiftToExponent, targetExponent_eq, hk]
    rw [add_sub_cancel_left, Int.toNat_natCast]
  have hstart : (ExtendedMantissa.ofMantissaAndAccuracy m accuracy).mantissa = m := by
    cases accuracy with
    | exact => rfl
    | inexact half => cases half <;> rfl
  have hmantissa : first.1.mantissa = m / 2 ^ k := by rw [hfirst, mantissa_shiftRight, hstart]
  obtain ⟨hlow, hhigh⟩ := roundedMantissa_near first.1
  rw [hmantissa] at hlow hhigh
  refine ⟨by rw [hfirst, hk], ?_, fun normal => le_trans ?_ hlow⟩
  · have : m / 2 ^ k < 2 ^ 53 := by
      rw [Nat.div_lt_iff_lt_mul (by positivity), ← Nat.pow_add]
      exact Nat.lt_log2_self.trans_le (Nat.pow_le_pow_right (by decide) (by omega))
    omega
  · rw [Nat.le_div_iff_mul_le (by positivity), ← Nat.pow_add]
    exact (Nat.pow_le_pow_right (by decide) (by omega)).trans (Nat.log2_self_le hm)

theorem shift_keeps {m : ℕ} {e : ℤ} (hm : m < 2 ^ 53) (he : -1074 ≤ e) :
    shiftToTargetExponent Format.binary64 m e .exact = (⟨m, false, false⟩, e) := by
  have hlog : m.log2 ≤ 52 := by
    by_cases h : m = 0
    · rw [h]
      decide
    · exact Nat.lt_succ_iff.mp ((Nat.log2_lt h).mpr hm)
  have hzero : (max (m.log2 + e - 52) (-1074) - e).toNat = 0 := by omega
  simp only [shiftToTargetExponent, shiftToExponent, targetExponent_eq, hzero]
  rw [Int.natCast_zero, add_zero]
  rfl

theorem shift_carries {e : ℤ} (he : -1074 ≤ e) :
    shiftToTargetExponent Format.binary64 (2 ^ 53) e .exact = (⟨2 ^ 52, false, false⟩, e + 1) := by
  have hone : (max (((2 ^ 53 : ℕ).log2 : ℤ) + e - 52) (-1074) - e).toNat = 1 := by
    rw [Nat.log2_two_pow]
    omega
  simp only [shiftToTargetExponent, shiftToExponent, targetExponent_eq, hone]
  rfl

/-- A number of enough bits is rounded to zero, if it is small, or to a canonical double, with the exponent that
goes by its size or, where rounding carries, one more. -/
theorem roundWithAccuracy_cases (s : Sign) {m : ℕ} {e : ℤ} (accuracy : Accuracy) (hm : m ≠ 0)
    (wide : 52 ≤ m.log2 ∨ e ≤ -1074) :
    (roundWithAccuracy Format.binary64 s m e accuracy = .zero s ∧ m.log2 + e < -1022) ∨
      ∃ r e' hr, roundWithAccuracy Format.binary64 s m e accuracy = .finite s r e' hr ∧ Canonical r e' ∧
        m.log2 + e - 52 ≤ e' ∧ e' ≤ max (m.log2 + e - 52) (-1074) + 1 := by
  obtain ⟨he, hle, hfull⟩ := shift_rounds accuracy hm wide
  simp only [roundWithAccuracy]
  generalize shiftToTargetExponent Format.binary64 m e accuracy = first at he hle hfull ⊢
  obtain ⟨em, e₁⟩ := first
  dsimp only at he hle hfull ⊢
  have hleast : -1074 ≤ e₁ := by omega
  rcases hle.lt_or_eq with hlt | heq
  · rw [shift_keeps hlt hleast]
    dsimp only
    split
    · rename_i hzero
      refine Or.inl ⟨rfl, ?_⟩
      by_contra hnormal
      have := hfull (not_lt.mp hnormal)
      omega
    · rename_i hpos
      refine Or.inr ⟨em.roundedMantissa, e₁, Nat.pos_of_ne_zero hpos, rfl, ⟨hlt, hleast, ?_⟩, by omega, by omega⟩
      by_cases hnormal : -1022 ≤ m.log2 + e
      · exact Or.inl (hfull hnormal)
      · exact Or.inr (by omega)
  · rw [heq, shift_carries hleast]
    exact Or.inr ⟨2 ^ 52, e₁ + 1, by decide, rfl, ⟨by decide, by omega, Or.inl le_rfl⟩, by omega, by omega⟩

/-! ## Bits -/

theorem ofBitVec_unpackSign (s : Sign) (exponent : BitVec 11) (mantissa : BitVec 52) :
    Sign.ofBitVec (unpackSign (packComponents Format.binary64 s exponent mantissa)) = s := by
  simp only [unpackSign, packComponents, BitVec.extractLsb]
  rw [BitVec.extractLsb'_append_eq_of_le (by decide), BitVec.extractLsb'_append_eq_of_le (by decide)]
  cases s <;> rfl

theorem toNat_append_one (m : BitVec 52) : (1#1 ++ m).toNat = 2 ^ 52 + m.toNat := by
  rw [BitVec.toNat_append, ← Nat.shiftLeft_add_eq_or_of_lt m.isLt, Nat.shiftLeft_eq]
  rfl

theorem canonical_of_unpack {x : Float.Model} {s : Sign} {m : ℕ} {e : ℤ} {hm : 0 < m}
    (h : x.unpack = .finite s m e hm) : Canonical m e := by
  have hbias : (Format.binary64.exponentBias : ℤ) = 1023 := by decide
  have hmantissa : (@unpackMantissa Format.binary64 x.toBits.toBitVec).toNat < 2 ^ 52 := BitVec.isLt _
  unfold Float.Model.unpack UnpackedFloat.unpack at h
  dsimp only at h
  rw [hbias] at h
  split at h
  · split at h <;> cases h
  · split at h
    · -- With the least exponent the bits of the mantissa are all there is.
      rename_i hzero
      split at h
      · cases h
      · cases h
        rw [hzero]
        exact ⟨by omega, by decide, Or.inr (by decide)⟩
    · -- With any other one there is one more bit in front of them.
      rename_i hnonzero
      cases h
      rw [toNat_append_one]
      have hpos : (@unpackExponent Format.binary64 x.toBits.toBitVec).toNat ≠ 0 :=
        fun h0 => hnonzero (BitVec.eq_of_toNat_eq h0)
      exact ⟨by omega, by push_cast; omega, Or.inl (by omega)⟩

theorem unpack_pack_zero (s : Sign) : (Float.Model.pack (.zero s)).unpack = .zero s := by
  cases s <;> rfl

theorem unpack_pack_infinity (s : Sign) : (Float.Model.pack (.infinity s)).unpack = .infinity s := by
  cases s <;> rfl

theorem unpack_normal (s : Sign) {b : ℕ} (h₀ : b ≠ 0) (h₁ : b + 1 < 2 ^ 11) (mantissa : BitVec 52) :
    UnpackedFloat.unpack Format.binary64 (packComponents Format.binary64 s (BitVec.ofNat 11 b) mantissa) =
      .finite s (2 ^ 52 + mantissa.toNat) (b - 1075) (by omega) := by
  have hexponent : (BitVec.ofNat 11 b).toNat = b := by rw [BitVec.toNat_ofNat, Nat.mod_eq_of_lt (by omega)]
  have hnonzero : BitVec.ofNat 11 b ≠ 0#11 := fun h => h₀ (by rw [← hexponent, h]; rfl)
  have hfinite : BitVec.ofNat 11 b ≠ -1#11 := fun h => by
    rw [h] at hexponent
    change 2047 = b at hexponent
    omega
  unfold UnpackedFloat.unpack
  simp only [unpackExponent_packComponents, unpackMantissa_packComponents]
  rw [if_neg hfinite, if_neg hnonzero, UnpackedFloat.finite.injEq]
  exact ⟨ofBitVec_unpackSign s _ _, toNat_append_one mantissa, by rw [hexponent]; rfl⟩

theorem unpack_subnormal (s : Sign) {mantissa : BitVec 52} (h : 0 < mantissa.toNat) :
    UnpackedFloat.unpack Format.binary64 (packComponents Format.binary64 s 0#11 mantissa) =
      .finite s mantissa.toNat (-1074) h := by
  have hnonzero : mantissa ≠ 0#52 := fun h0 => by
    rw [h0] at h
    cases h
  have hfinite : 0#11 ≠ -1#11 := by decide
  unfold UnpackedFloat.unpack
  simp only [unpackExponent_packComponents, unpackMantissa_packComponents]
  rw [if_neg hfinite, if_pos trivial, dif_neg hnonzero, UnpackedFloat.finite.injEq]
  exact ⟨ofBitVec_unpackSign s _ _, rfl, rfl⟩

/-- A canonical double that is not too large comes back from its bits; a larger one becomes infinity. -/
theorem unpack_pack_finite (s : Sign) {m : ℕ} {e : ℤ} (hm : 0 < m) (h : Canonical m e) :
    (Float.Model.pack (.finite s m e hm)).unpack = if e ≤ 971 then .finite s m e hm else .infinity s := by
  obtain ⟨hbelow, hleast, hfull⟩ := h
  have hbias : Format.binary64.exponentBias = 1023 := by decide
  have hlog : m.log2 + 1 = Format.binary64.mantissaBits ↔ 2 ^ 52 ≤ m := by
    rw [← Nat.le_log2 hm.ne']
    have hsmall : m.log2 < 53 := (Nat.log2_lt hm.ne').mpr hbelow
    change m.log2 + 1 = 53 ↔ _
    omega
  obtain ⟨b, hb⟩ : ∃ b : ℕ, e + 1075 = b := ⟨(e + 1075).toNat, by omega⟩
  have hbiased : (e + (1023 : ℕ) + (52 : ℕ)).toNat = b := by omega
  change UnpackedFloat.unpack Format.binary64 (UnpackedFloat.pack Format.binary64 (.finite s m e hm)) = _
  simp only [UnpackedFloat.pack, hbias, hbiased, hlog]
  by_cases hlarge : 2 ^ 11 ≤ b + 1
  · have he : ¬e ≤ 971 := by omega
    rw [if_pos hlarge, if_neg he]
    exact unpack_pack_infinity s
  · have he : e ≤ 971 := by omega
    rw [if_neg hlarge, if_pos he]
    by_cases hwide : 2 ^ 52 ≤ m
    · have hrest : 2 ^ 52 + (BitVec.ofNat 52 m).toNat = m := by
        rw [BitVec.toNat_ofNat]
        omega
      rw [if_pos hwide, unpack_normal s (by omega) (by omega), UnpackedFloat.finite.injEq]
      exact ⟨rfl, hrest, by omega⟩
    · have hrest : (BitVec.ofNat 52 m).toNat = m := by
        rw [BitVec.toNat_ofNat, Nat.mod_eq_of_lt (not_le.mp hwide)]
      rw [if_neg hwide, unpack_subnormal s (hm.trans_eq hrest.symm), UnpackedFloat.finite.injEq]
      exact ⟨rfl, hrest, (hfull.resolve_left hwide).symm⟩

/-! ## Products -/

theorem unpack_mul (x y : Float) :
    (x * y).toModel.unpack =
      (Float.Model.pack (UnpackedFloat.mul Format.binary64 x.toModel.unpack y.toModel.unpack)).unpack := rfl

/-- What the product of two doubles that are not zero is rounded to. -/
theorem product_cases (s : Sign) {m₁ m₂ : ℕ} {e₁ e₂ : ℤ} (h₁ : 0 < m₁) (h₂ : 0 < m₂) (c₁ : Canonical m₁ e₁)
    (c₂ : Canonical m₂ e₂) :
    (roundWithAccuracy Format.binary64 s (m₁ * m₂) (e₁ + e₂) .exact = .zero s ∧
        (m₁ * m₂).log2 + (e₁ + e₂) < -1022) ∨
      ∃ r e hr, roundWithAccuracy Format.binary64 s (m₁ * m₂) (e₁ + e₂) .exact = .finite s r e hr ∧
        Canonical r e ∧ e ≤ max (e₁ + e₂ + 53) (-1074) + 1 := by
  have hm : m₁ * m₂ ≠ 0 := (Nat.mul_pos h₁ h₂).ne'
  have hlog : (m₁ * m₂).log2 < 106 := by
    rw [Nat.log2_lt hm]
    exact (Nat.mul_lt_mul'' c₁.below c₂.below).trans_eq (by norm_num)
  have wide : 52 ≤ (m₁ * m₂).log2 ∨ e₁ + e₂ ≤ -1074 := by
    rw [Nat.le_log2 hm]
    rcases c₁.full with f₁ | f₁
    · exact Or.inl (f₁.trans (Nat.le_mul_of_pos_right _ h₂))
    · rcases c₂.full with f₂ | f₂
      · exact Or.inl (f₂.trans (Nat.le_mul_of_pos_left _ h₁))
      · exact Or.inr (by omega)
  obtain hzero | ⟨r, e, hr, hround, hc, -, he⟩ := roundWithAccuracy_cases s .exact hm wide
  · exact Or.inl hzero
  · exact Or.inr ⟨r, e, hr, hround, hc, by omega⟩

/-- A double that stands for less than `2 ^ (k + 53)`, with either sign. -/
def Below (k : ℤ) (x : Float) : Prop :=
  (∃ s, x.toModel.unpack = .zero s) ∨ ∃ s m e hm, x.toModel.unpack = .finite s m e hm ∧ e ≤ k

theorem Below.isInf {k : ℤ} {x : Float} (h : Below k x) : x.isInf = false := by
  change x.toModel.unpack.isInf = false
  obtain ⟨s, hx⟩ | ⟨s, m, e, hm, hx, -⟩ := h <;> rw [hx] <;> rfl

theorem Below.mul {j k : ℤ} {x y : Float} (hx : Below j x) (hy : Below k y) (low : -1127 ≤ j + k)
    (high : j + k + 54 ≤ 971) : Below (j + k + 54) (x * y) := by
  unfold Below
  rw [unpack_mul]
  obtain ⟨s₁, hx⟩ | ⟨s₁, m₁, e₁, h₁, hx, hj⟩ := hx <;> obtain ⟨s₂, hy⟩ | ⟨s₂, m₂, e₂, h₂, hy, hk⟩ := hy <;>
    rw [hx, hy, UnpackedFloat.mul]
  · exact Or.inl ⟨_, unpack_pack_zero _⟩
  · exact Or.inl ⟨_, unpack_pack_zero _⟩
  · exact Or.inl ⟨_, unpack_pack_zero _⟩
  · obtain ⟨hzero, -⟩ | ⟨r, e, hr, hround, hc, he⟩ :=
      product_cases (s₁ * s₂) h₁ h₂ (canonical_of_unpack hx) (canonical_of_unpack hy)
    · rw [hzero]
      exact Or.inl ⟨_, unpack_pack_zero _⟩
    · rw [hround, unpack_pack_finite _ hr hc, if_pos (by omega)]
      exact Or.inr ⟨_, r, e, hr, rfl, by omega⟩

/-! ## Comparing with 0 and 1 -/

theorem unpack_zero : (0 : Float).toModel.unpack = .zero .positive := rfl

theorem unpack_one : (1 : Float).toModel.unpack = .finite .positive (2 ^ 52) (-52) (by decide) := rfl

theorem lt_iff {x y : Float} : x < y ↔ UnpackedFloat.lt x.toModel.unpack y.toModel.unpack = true :=
  decide_eq_true_iff (p := x.toModel < y.toModel)

theorem le_iff {x y : Float} : x ≤ y ↔ UnpackedFloat.le x.toModel.unpack y.toModel.unpack = true :=
  decide_eq_true_iff (p := x.toModel ≤ y.toModel)

theorem lt_finite_iff {m₁ m₂ : ℕ} {e₁ e₂ : ℤ} {h₁ : 0 < m₁} {h₂ : 0 < m₂} :
    UnpackedFloat.lt (.finite .positive m₁ e₁ h₁) (.finite .positive m₂ e₂ h₂) = true ↔
      e₁ < e₂ ∨ e₁ = e₂ ∧ m₁ < m₂ := by
  change (some ((compare e₁ e₂).then (compare m₁ m₂)) == some Ordering.lt) = true ↔ _
  rw [beq_iff_eq, Option.some.injEq, Ordering.then_eq_lt, compare_lt_iff_lt, compare_eq_iff_eq,
    compare_lt_iff_lt]

theorem below_of_lt_one {x : Float} (nonneg : 0 ≤ x) (h : x < 1) : Below (-53) x := by
  rw [le_iff, unpack_zero] at nonneg
  rw [lt_iff, unpack_one] at h
  unfold Below
  cases hx : x.toModel.unpack with
  | infinity s =>
    rw [hx] at nonneg h
    cases s <;> contradiction
  | notANumber =>
    rw [hx] at h
    contradiction
  | zero s => exact Or.inl ⟨s, rfl⟩
  | finite s m e hm =>
    obtain ⟨-, -, hfull⟩ := canonical_of_unpack hx
    rw [hx] at nonneg h
    cases s with
    | negative => contradiction
    | positive =>
      rw [lt_finite_iff] at h
      exact Or.inr ⟨_, m, e, hm, rfl, by omega⟩

/-- A double that is not below 1, or no number, has a square that is not zero. -/
theorem square_ne_zero {x : Float} (h : ¬x < 1) : (x * x == 0) = false := by
  rw [lt_iff, unpack_one] at h
  change UnpackedFloat.beq (x * x).toModel.unpack (0 : Float).toModel.unpack = false
  rw [unpack_mul, unpack_zero]
  cases hx : x.toModel.unpack with
  | infinity s => cases s <;> rfl
  | notANumber => rfl
  | zero s =>
    rw [hx] at h
    cases s <;> exact absurd rfl h
  | finite s m e hm =>
    have hc := canonical_of_unpack hx
    rw [hx] at h
    cases s with
    | negative => exact absurd rfl h
    | positive =>
      rw [lt_finite_iff] at h
      rw [UnpackedFloat.mul]
      obtain ⟨-, hsmall⟩ | ⟨r, e', hr, hround, hc', -⟩ := product_cases (Sign.positive * .positive) hm hm hc hc
      · -- A product as large as this is not rounded to zero.
        have hlog : 104 ≤ (m * m).log2 := by
          rw [Nat.le_log2 (Nat.mul_pos hm hm).ne']
          have hfull : 2 ^ 52 ≤ m := by
            have := hc.full
            omega
          exact (by norm_num : 2 ^ 104 = 2 ^ 52 * 2 ^ 52).trans_le (Nat.mul_le_mul hfull hfull)
        omega
      · rw [hround, unpack_pack_finite _ hr hc']
        split <;> rfl

/-! ## Zero -/

theorem toNat_unpackMantissa (bits : BitVec 64) :
    (@unpackMantissa Format.binary64 bits).toNat = bits.toNat % hiddenBit := by
  rw [unpackMantissa, BitVec.toNat_cast, BitVec.extractLsb_toNat, Nat.shiftRight_zero]
  rfl

theorem toNat_unpackExponent (bits : BitVec 64) :
    (@unpackExponent Format.binary64 bits).toNat = bits.toNat / hiddenBit % 2048 := by
  rw [unpackExponent, BitVec.toNat_cast, BitVec.extractLsb_toNat, Nat.shiftRight_eq_div_pow]
  rfl

theorem view_of_unpack_zero {x : Float} {s : Sign} (h : x.toModel.unpack = .zero s) :
    ∃ neg, view x = .finite neg 0 (-1074) := by
  unfold Float.Model.unpack UnpackedFloat.unpack at h
  dsimp only at h
  split at h
  · split at h <;> cases h
  · split at h
    · rename_i hexponent
      split at h
      · rename_i hmantissa
        refine ⟨decide (Nat.pow 2 63 ≤ x.toBits.toNat), ?_⟩
        unfold view viewBits
        have he : x.toBits.toNat / hiddenBit % 2048 = 0 :=
          (toNat_unpackExponent x.toModel.toBits.toBitVec).symm.trans (by rw [hexponent]; rfl)
        have hm : x.toBits.toNat % hiddenBit = 0 :=
          (toNat_unpackMantissa x.toModel.toBits.toBitVec).symm.trans (by rw [hmantissa]; rfl)
        dsimp only
        rw [he, hm]
        rfl
      · cases h
    · cases h

theorem compareExact_zero (neg : Bool) (e : ℤ) : Number.compareExact 0 neg 0 e = .eq := by
  have hnum : (fraction 0 e).1 = 0 := by
    unfold fraction
    split
    · rfl
    · exact Nat.zero_mul _
  unfold Number.compareExact
  dsimp only
  rw [hnum]
  cases neg <;> simp

theorem fraction_pos (m : ℕ) (e : ℤ) : 0 < (fraction m e).2 := by
  unfold fraction
  split
  · exact Nat.pow_pos two_pos
  · exact one_pos

theorem fraction_exact (m : ℕ) (e : ℤ) : ((fraction m e).1 : ℝ) / (fraction m e).2 = m * ((2 : ℕ) : ℝ) ^ e := by
  unfold fraction
  split
  · rename_i hneg
    obtain ⟨n, rfl⟩ : ∃ n : ℕ, e = -n := ⟨(-e).toNat, by omega⟩
    simp [Nat.pow_eq, div_eq_mul_inv]
  · rename_i hpos
    obtain ⟨n, rfl⟩ : ∃ n : ℕ, e = n := ⟨e.toNat, by omega⟩
    simp [Nat.pow_eq]

theorem compareExact_lt (n : ℤ) (neg : Bool) (m : ℕ) (e : ℤ) :
    Number.compareExact n neg m e = .lt ↔ (n : ℝ) < (if neg then -1 else 1) * m * ((2 : ℕ) : ℝ) ^ e := by
  have hden : (0 : ℝ) < (fraction m e).2 := by exact_mod_cast fraction_pos m e
  unfold Number.compareExact
  dsimp only
  rw [compare_lt_iff_lt, mul_assoc, ← fraction_exact]
  cases neg with
  | false =>
    rw [if_neg Bool.false_ne_true, if_neg Bool.false_ne_true, one_mul, lt_div_iff₀ hden]
    exact_mod_cast Iff.rfl
  | true =>
    rw [if_pos rfl, if_pos rfl, neg_one_mul, ← neg_div, lt_div_iff₀ hden]
    exact_mod_cast Iff.rfl

theorem unpack_of_eq_zero {x : Float} (h : (x == 0) = true) : ∃ s, x.toModel.unpack = .zero s := by
  change UnpackedFloat.beq x.toModel.unpack (0 : Float).toModel.unpack = true at h
  cases hx : x.toModel.unpack with
  | zero s => exact ⟨s, rfl⟩
  | infinity s =>
    rw [hx] at h
    cases s <;> contradiction
  | notANumber =>
    rw [hx] at h
    contradiction
  | finite s m e hm =>
    rw [hx] at h
    cases s <;> contradiction

theorem compareWhole?_zero {x : Float} (h : (x == 0) = true) : Number.compareWhole? 0 x = some .eq := by
  obtain ⟨s, hx⟩ := unpack_of_eq_zero h
  obtain ⟨neg, hview⟩ := view_of_unpack_zero hx
  unfold Number.compareWhole?
  rw [hview]
  exact congrArg some (compareExact_zero neg _)

end NodeLink.Binary64
