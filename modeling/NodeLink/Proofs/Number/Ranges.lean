import NodeLink.Proofs.Number.Doubles

/-!
# How large doubles can get

A positive double of 53 bits has an exponent in some range. Products and quotients of such doubles are again of
this kind, and so are the doubles of whole numbers. Where sums and differences come in, only an upper bound is
left, and no number may be what an operation comes to.
-/

namespace NodeLink.Binary64

open Float.Model Float.Model.UnpackedFloat

/-- A positive double of 53 bits with an exponent in the range. -/
def Normal (lo hi : ℤ) (x : Float) : Prop :=
  ∃ m e hm, x.toModel.unpack = .finite .positive m e hm ∧ 2 ^ 52 ≤ m ∧ lo ≤ e ∧ e ≤ hi

/-- A double that is bounded, or no number. -/
def Tame (k : ℤ) (x : Float) : Prop := x.toModel.unpack = .notANumber ∨ Below k x

variable {lo hi lo₁ hi₁ lo₂ hi₂ j k : ℤ} {x y : Float}

theorem log2_of_full {m : ℕ} (hfull : 2 ^ 52 ≤ m) (hbelow : m < 2 ^ 53) : m.log2 = 52 := by
  have hm : m ≠ 0 := by omega
  have hlow : 52 ≤ m.log2 := (Nat.le_log2 hm).mpr hfull
  have hhigh : m.log2 < 53 := (Nat.log2_lt hm).mpr hbelow
  omega

/-! ## Normal doubles -/

theorem Normal.mono (h : Normal lo hi x) (hlo : lo₁ ≤ lo) (hhi : hi ≤ hi₁) : Normal lo₁ hi₁ x := by
  obtain ⟨m, e, hm, hx, hfull, hle, hge⟩ := h
  exact ⟨m, e, hm, hx, hfull, hlo.trans hle, hge.trans hhi⟩

theorem Normal.below (h : Normal lo hi x) (hk : hi ≤ k) : Below k x := by
  obtain ⟨m, e, hm, hx, -, -, he⟩ := h
  exact Or.inr ⟨_, m, e, hm, hx, he.trans hk⟩

theorem Normal.isInf (h : Normal lo hi x) : x.isInf = false := (h.below le_rfl).isInf

theorem ne_zero_of_positive {m : ℕ} {e : ℤ} {hm : 0 < m} (hx : x.toModel.unpack = .finite .positive m e hm) :
    (x == 0) = false := by
  change UnpackedFloat.beq x.toModel.unpack (0 : Float).toModel.unpack = false
  rw [hx]
  rfl

theorem Normal.ne_zero (h : Normal lo hi x) : (x == 0) = false := by
  obtain ⟨m, e, hm, hx, -⟩ := h
  exact ne_zero_of_positive hx

/-- A positive number of enough bits is rounded to a normal double if it is neither too small nor too large. -/
theorem unpack_pack_rounded {m : ℕ} {e : ℤ} (accuracy : Accuracy) (hm : m ≠ 0) (wide : 52 ≤ m.log2)
    (low : -1021 ≤ m.log2 + e) (high : m.log2 + e ≤ 1022) :
    ∃ r e' hr, (Float.Model.pack (roundWithAccuracy Format.binary64 .positive m e accuracy)).unpack =
      .finite .positive r e' hr ∧ 2 ^ 52 ≤ r ∧ m.log2 + e - 52 ≤ e' ∧ e' ≤ m.log2 + e - 51 := by
  obtain ⟨-, hsmall⟩ | ⟨r, e', hr, hround, hc, hlow, hhigh⟩ :=
    roundWithAccuracy_cases .positive (e := e) accuracy hm (Or.inl wide)
  · omega
  · refine ⟨r, e', hr, ?_, hc.full.resolve_right (by omega), hlow, by omega⟩
    rw [hround, unpack_pack_finite _ hr hc, if_pos (by omega)]

theorem Normal.mul (hx : Normal lo₁ hi₁ x) (hy : Normal lo₂ hi₂ y) (low : -1125 ≤ lo₁ + lo₂)
    (high : hi₁ + hi₂ ≤ 917) : Normal (lo₁ + lo₂ + 52) (hi₁ + hi₂ + 54) (x * y) := by
  obtain ⟨m₁, e₁, h₁, hx, f₁, hlo₁, hhi₁⟩ := hx
  obtain ⟨m₂, e₂, h₂, hy, f₂, hlo₂, hhi₂⟩ := hy
  have hm : m₁ * m₂ ≠ 0 := (Nat.mul_pos h₁ h₂).ne'
  have hlow : 104 ≤ (m₁ * m₂).log2 :=
    (Nat.le_log2 hm).mpr ((by norm_num : 2 ^ 104 = 2 ^ 52 * 2 ^ 52).trans_le (Nat.mul_le_mul f₁ f₂))
  have hhigh : (m₁ * m₂).log2 < 106 := by
    rw [Nat.log2_lt hm]
    exact (Nat.mul_lt_mul'' (canonical_of_unpack hx).below (canonical_of_unpack hy).below).trans_eq
      (by norm_num)
  obtain ⟨r, e, hr, hround, hfull, hle, hge⟩ :=
    unpack_pack_rounded (e := e₁ + e₂) .exact hm (by omega) (by omega) (by omega)
  refine ⟨r, e, hr, ?_, hfull, by omega, by omega⟩
  rw [unpack_mul, hx, hy]
  exact hround

theorem unpack_div (x y : Float) :
    (x / y).toModel.unpack =
      (Float.Model.pack (UnpackedFloat.div Format.binary64 x.toModel.unpack y.toModel.unpack)).unpack := rfl

theorem targetExponent_int (t : ℤ) : Format.binary64.targetExponent t = max (t - 53) (-1074) := by
  have hmin : Format.binary64.minExponent = -1074 := by decide
  rw [Format.targetExponent, hmin, Format.mantissaBits]
  congr 1

/-- The quotient of two mantissas of 53 bits, taken to so many places, has at least 53 bits. -/
theorem quotient_wide {m₁ m₂ : ℕ} (f₁ : 2 ^ 52 ≤ m₁) (f₂ : 2 ^ 52 ≤ m₂) (b₁ : m₁ < 2 ^ 53) (b₂ : m₂ < 2 ^ 53) :
    m₁ * 2 ^ 53 / m₂ ≠ 0 ∧ 52 ≤ (m₁ * 2 ^ 53 / m₂).log2 ∧ (m₁ * 2 ^ 53 / m₂).log2 ≤ 53 := by
  have hpos : 0 < m₂ := by omega
  have hlow : 2 ^ 52 ≤ m₁ * 2 ^ 53 / m₂ := by
    rw [Nat.le_div_iff_mul_le hpos]
    exact Nat.mul_le_mul f₁ b₂.le
  have hhigh : m₁ * 2 ^ 53 / m₂ < 2 ^ 54 := by
    rw [Nat.div_lt_iff_lt_mul hpos]
    omega
  have hne : m₁ * 2 ^ 53 / m₂ ≠ 0 := by omega
  exact ⟨hne, (Nat.le_log2 hne).mpr hlow, Nat.lt_succ_iff.mp ((Nat.log2_lt hne).mpr hhigh)⟩

theorem Normal.div (hx : Normal lo₁ hi₁ x) (hy : Normal lo₂ hi₂ y) (low : -1020 ≤ lo₁ - hi₂)
    (high : hi₁ - lo₂ ≤ 1022) : Normal (lo₁ - hi₂ - 53) (hi₁ - lo₂ - 51) (x / y) := by
  obtain ⟨m₁, e₁, h₁, hx, f₁, hlo₁, hhi₁⟩ := hx
  obtain ⟨m₂, e₂, h₂, hy, f₂, hlo₂, hhi₂⟩ := hy
  have b₁ := (canonical_of_unpack hx).below
  have b₂ := (canonical_of_unpack hy).below
  obtain ⟨hne, hlow, hhigh⟩ := quotient_wide f₁ f₂ b₁ b₂
  obtain ⟨r, e, hr, hround, hfull, hle, hge⟩ :=
    unpack_pack_rounded (e := e₁ - e₂ - 53) (accuracyOfFraction (m₁ * 2 ^ 53 % m₂) m₂) hne hlow (by omega)
      (by omega)
  have htarget : min (e₁ - e₂) (Format.binary64.targetExponent (totalExponent m₁ e₁ - totalExponent m₂ e₂)) =
      e₁ - e₂ - 53 := by
    rw [targetExponent_int, totalExponent, totalExponent, log2_of_full f₁ b₁, log2_of_full f₂ b₂]
    omega
  have hshift : (e₁ - e₂ - (e₁ - e₂ - 53)).toNat = 53 := by omega
  refine ⟨r, e, hr, ?_, hfull, by omega, by omega⟩
  rw [unpack_div, hx, hy]
  simp only [UnpackedFloat.div, divCore, htarget, hshift, Nat.shiftLeft_eq]
  exact hround

/-- A positive double by itself is normal, whatever its size. -/
theorem normal_div_self {m : ℕ} {e : ℤ} {hm : 0 < m} (hx : x.toModel.unpack = .finite .positive m e hm) :
    Normal (-53) (-51) (x / x) := by
  obtain ⟨r, e', hr, hround, hfull, hle, hge⟩ := unpack_pack_rounded (m := 2 ^ 53) (e := -53) .exact
    (by norm_num) (by rw [Nat.log2_two_pow]; omega) (by rw [Nat.log2_two_pow]; omega)
    (by rw [Nat.log2_two_pow]; omega)
  rw [Nat.log2_two_pow] at hle hge
  have htarget : min (e - e) (Format.binary64.targetExponent (totalExponent m e - totalExponent m e)) = -53 := by
    rw [targetExponent_int]
    omega
  have hshift : (e - e - -53).toNat = 53 := by omega
  have hquotient : m * 2 ^ 53 / m = 2 ^ 53 := Nat.mul_div_cancel_left _ hm
  have hrest : accuracyOfFraction (m * 2 ^ 53 % m) m = .exact := by
    rw [Nat.mul_mod_right]
    rfl
  refine ⟨r, e', hr, ?_, hfull, by omega, by omega⟩
  rw [unpack_div, hx]
  simp only [UnpackedFloat.div, divCore, htarget, hshift, Nat.shiftLeft_eq, hquotient, hrest]
  exact hround

/-! ## Whole numbers -/

/-- What a whole number is rounded to, once it has enough bits. -/
theorem round_eq (s : Sign) {m : ℕ} (e : ℤ) (hm : m ≠ 0) :
    ∃ k : ℕ, UnpackedFloat.round Format.binary64 s m e = roundWithAccuracy Format.binary64 s (m * 2 ^ k) (e - k) .exact ∧
      (m * 2 ^ k).log2 = m.log2 + k ∧ (52 ≤ (m * 2 ^ k).log2 ∨ e - k ≤ -1074) := by
  have hlog (k : ℕ) : (m * 2 ^ k).log2 = m.log2 + k := by
    rw [Nat.log2_eq_iff (Nat.mul_ne_zero hm (by positivity)), Nat.pow_add, Nat.add_right_comm, Nat.pow_add]
    exact ⟨Nat.mul_le_mul_right _ (Nat.log2_self_le hm),
      Nat.mul_lt_mul_of_pos_right Nat.lt_log2_self (by positivity)⟩
  refine ⟨(e - max (m.log2 + e - 52) (-1074)).toNat, ?_, hlog _, ?_⟩
  · simp only [UnpackedFloat.round, decreaseExponent, targetExponent_eq, Nat.shiftLeft_eq]
  · rw [hlog]
    omega

theorem unpack_toFloat (n : UInt64) :
    n.toFloat.toModel.unpack =
      (Float.Model.pack (UnpackedFloat.normalize Format.binary64 (n.toNat : ℤ) 0 .positive)).unpack := rfl

theorem normal_toFloat {n : UInt64} (hn : n.toNat ≠ 0) : Normal (-52) 12 n.toFloat := by
  obtain ⟨k, hround, hlog, wide⟩ := round_eq .positive 0 hn
  have hsmall : n.toNat.log2 < 64 := (Nat.log2_lt hn).mpr n.toNat_lt
  have hm : n.toNat * 2 ^ k ≠ 0 := Nat.mul_ne_zero hn (by positivity)
  have hwide : 52 ≤ (n.toNat * 2 ^ k).log2 := by omega
  obtain ⟨r, e, hr, hunpack, hfull, hle, hge⟩ :=
    unpack_pack_rounded (e := 0 - k) .exact hm hwide (by omega) (by omega)
  have hsign : UnpackedFloat.normalize Format.binary64 (n.toNat : ℤ) 0 .positive =
      UnpackedFloat.round Format.binary64 .positive n.toNat 0 := by
    have hpos : compare (n.toNat : ℤ) 0 = .gt := compare_gt_iff_gt.mpr (by omega)
    rw [UnpackedFloat.normalize, hpos]
    rfl
  refine ⟨r, e, hr, ?_, hfull, by omega, by omega⟩
  rw [unpack_toFloat, hsign, hround]
  exact hunpack

theorem normal_ofNat {n : ℕ} (hn : n ≠ 0) (hsmall : n < 2 ^ 53) : Normal (-52) 14 (Float.ofNat n) := by
  have hword : n.toUInt64.toNat = n := by
    change n % 2 ^ 64 = n
    omega
  have hproduct : Float.ofNat n = n.toUInt64.toFloat * Float.ofBits 0x3FF0000000000000 := by
    change Float.ofScientific n false 0 = _
    rw [Float.ofScientific, dif_pos ⟨hsmall, by omega⟩]
    rfl
  have hone : Normal (-52) (-52) (Float.ofBits 0x3FF0000000000000) := ⟨_, _, _, rfl, le_rfl, le_rfl, le_rfl⟩
  rw [hproduct]
  exact ((normal_toFloat (by rwa [hword])).mul hone (by omega) (by omega)).mono (by omega) (by omega)

/-! ## Rounding fractions -/

theorem hiddenBit_eq : hiddenBit = 2 ^ 52 := rfl

theorem unpackSign_of_small {bits : BitVec 64} (h : bits.toNat < Nat.pow 2 63) :
    @unpackSign Format.binary64 bits = 0#1 := by
  apply BitVec.eq_of_toNat_eq
  rw [unpackSign, BitVec.toNat_cast, BitVec.extractLsb_toNat, Nat.shiftRight_eq_div_pow]
  exact (congrArg (· % _) (Nat.div_eq_of_lt h)).trans (Nat.zero_mod _)

/-- The bits of a double that is positive, not small and not infinite say what its exponent is. -/
theorem normal_ofBits {b place : ℕ} (hb : b / hiddenBit = place) (hlow : 0 < place) (hhigh : place < 2047) :
    Normal (place - 1075) (place - 1075) (Float.ofBits (UInt64.ofNat b)) := by
  have hsmall : b < 2 ^ 63 := by
    rw [hiddenBit_eq] at hb
    omega
  have hword : (UInt64.ofNat b).toBitVec.toNat = b := by
    change b % 2 ^ 64 = b
    omega
  have hexponent : (@unpackExponent Format.binary64 (UInt64.ofNat b).toBitVec).toNat = place := by
    rw [toNat_unpackExponent, hword, hb]
    omega
  -- neither the exponent of infinity nor that of the subnormal doubles
  have hinfinite : @unpackExponent Format.binary64 (UInt64.ofNat b).toBitVec ≠ -1#11 := by
    intro h
    rw [h] at hexponent
    change 2047 = place at hexponent
    omega
  have hzero : @unpackExponent Format.binary64 (UInt64.ofNat b).toBitVec ≠ 0#11 := by
    intro h
    rw [h] at hexponent
    change 0 = place at hexponent
    omega
  have hsign : Sign.ofBitVec (@unpackSign Format.binary64 (UInt64.ofNat b).toBitVec) = .positive := by
    rw [unpackSign_of_small (by rwa [hword])]
    rfl
  have hmantissa : (@unpackMantissa Format.binary64 (UInt64.ofNat b).toBitVec).toNat < 2 ^ 52 := BitVec.isLt _
  generalize hm : (@unpackMantissa Format.binary64 (UInt64.ofNat b).toBitVec).toNat = rest at hmantissa
  have hpos : 0 < 2 ^ 52 + rest := by omega
  have hunpack : UnpackedFloat.unpack Format.binary64 (UInt64.ofNat b).toBitVec =
      .finite .positive (2 ^ 52 + rest) (place - 1075) hpos := by
    have hbias : (Format.binary64.exponentBias : ℤ) = 1023 := by decide
    unfold UnpackedFloat.unpack
    dsimp only
    rw [if_neg hinfinite, if_neg hzero, UnpackedFloat.finite.injEq]
    refine ⟨hsign, (toNat_append_one _).trans (by rw [hm]), ?_⟩
    rw [hexponent, hbias]
    push_cast
    omega
  have hbits : (Float.ofBits (UInt64.ofNat b)).toModel.unpack =
      (Float.Model.pack (UnpackedFloat.unpack Format.binary64 (UInt64.ofNat b).toBitVec)).unpack := rfl
  rw [hunpack, unpack_pack_finite _ hpos ⟨by omega, by omega, Or.inl (Nat.le_add_right _ _)⟩,
    if_pos (by omega)] at hbits
  exact ⟨2 ^ 52 + rest, place - 1075, hpos, hbits, Nat.le_add_right _ _, le_rfl, le_rfl⟩

theorem roundDiv_near (num den : ℕ) :
    num / den ≤ roundDiv num den ∧ roundDiv num den ≤ num / den + 1 := by
  unfold roundDiv
  dsimp only
  split
  · omega
  · split <;> omega

theorem scaleDown_natCast (num den g : ℕ) : scaleDown num den (g : ℤ) = (num, den * 2 ^ g) := by
  rw [scaleDown, if_neg (by omega), Int.toNat_natCast]
  rfl

theorem gridOf_eq {num den g : ℕ} (hlog : num.log2 = den.log2 + g + 52) :
    gridOf num den = max (if num < den * 2 ^ g * hiddenBit then (g : ℤ) - 1 else g) (-1074) := by
  have hguess : (num.log2 : ℤ) - den.log2 - 52 = g := by omega
  unfold gridOf
  rw [hguess]
  extract_lets grid
  rw [show scaleDown num den grid = (num, den * 2 ^ g) from scaleDown_natCast num den g]

theorem nearestBits_eq {num den g : ℕ} (hn : num ≠ 0) (hgrid : gridOf num den = g) :
    nearestBits num den = min (if roundDiv num (den * 2 ^ g) < hiddenBit then roundDiv num (den * 2 ^ g)
      else (g + 1074) * hiddenBit + roundDiv num (den * 2 ^ g)) (2047 * hiddenBit) := by
  have hplace : ((g : ℤ) + 1074).toNat = g + 1074 := by omega
  unfold nearestBits
  rw [if_neg hn, hgrid]
  extract_lets grid
  rw [show scaleDown num den grid = (num, den * 2 ^ g) from scaleDown_natCast num den g]
  dsimp only [grid]
  rw [hplace]

/-- The exponent in the bits of a rounded number; rounding may carry. -/
theorem place_of_rounded {unit g q : ℕ} (hlow : unit ≤ q) (hhigh : q ≤ 2 * unit) (hpos : 0 < unit) (hg : g ≤ 970) :
    min ((g + 1074) * unit + q) (2047 * unit) / unit = g + 1075 ∨
      min ((g + 1074) * unit + q) (2047 * unit) / unit = g + 1076 := by
  obtain ⟨rest, rfl⟩ := Nat.exists_eq_add_of_le hlow
  have hsum : (g + 1074) * unit + (unit + rest) = (g + 1075) * unit + rest := by ring
  have hmost : (g + 1075) * unit + rest ≤ 2047 * unit := by
    have := Nat.mul_le_mul_right unit (show g + 1076 ≤ 2047 by omega)
    linarith
  rw [hsum, Nat.min_eq_left hmost, Nat.mul_comm, Nat.mul_add_div hpos]
  rcases Nat.lt_or_ge rest unit with hless | hmore
  · exact Or.inl (by rw [Nat.div_eq_of_lt hless, Nat.add_zero])
  · obtain rfl : rest = unit := by omega
    exact Or.inr (by rw [Nat.div_self hpos])

/-- A fraction with at least 53 bits before the point is rounded to 53 of them. -/
theorem nearestBits_of_wide {num den g : ℕ} (hn : num ≠ 0) (hlog : num.log2 = den.log2 + g + 52)
    (hlow : den * 2 ^ g * hiddenBit ≤ num) (hhigh : num < den * 2 ^ g * (2 * hiddenBit)) (hg : g ≤ 970) :
    nearestBits num den / hiddenBit = g + 1075 ∨ nearestBits num den / hiddenBit = g + 1076 := by
  obtain ⟨hnear, hnear'⟩ := roundDiv_near num (den * 2 ^ g)
  have hden : 0 < den * 2 ^ g := Nat.pos_of_ne_zero fun h => by
    rw [h, Nat.zero_mul] at hhigh
    exact Nat.not_lt_zero _ hhigh
  have hquotient : hiddenBit ≤ num / (den * 2 ^ g) := by
    rwa [Nat.le_div_iff_mul_le hden, Nat.mul_comm]
  have hquotient' : num / (den * 2 ^ g) < 2 * hiddenBit := by
    rwa [Nat.div_lt_iff_lt_mul hden, Nat.mul_comm]
  have hgrid : gridOf num den = g := by
    rw [gridOf_eq hlog, if_neg (not_lt.mpr hlow), max_eq_left (le_trans (by decide) (Int.natCast_nonneg g))]
  rw [nearestBits_eq hn hgrid, if_neg (not_lt.mpr (hquotient.trans hnear))]
  exact place_of_rounded (hquotient.trans hnear) (hnear'.trans hquotient') (Nat.pow_pos (by decide)) hg

/-- What the places in the bits of a rounded number of so many bits come to as an exponent. -/
theorem normal_of_place {b g : ℕ} (hg : g ≤ 970) (h : b / hiddenBit = g + 1075 ∨ b / hiddenBit = g + 1076) :
    Normal g (g + 1) (Float.ofBits (UInt64.ofNat b)) := by
  obtain h | h := h
  · exact (normal_ofBits h (by omega) (by omega)).mono (by push_cast; omega) (by push_cast; omega)
  · exact (normal_ofBits h (by omega) (by omega)).mono (by push_cast; omega) (by push_cast; omega)

/-- A whole number, or such a part of it, is rounded to a normal double where it has 53 bits before the point. -/
theorem normal_nearest {n i g : ℕ} (hn : n ≠ 0) (hlog : n.log2 = i + g + 52) (hg : g ≤ 970) :
    Normal g (g + 1) (nearest false n (2 ^ i)) := by
  have hsize : 2 ^ i * 2 ^ g * hiddenBit = 2 ^ n.log2 := by
    rw [hlog, hiddenBit_eq, Nat.pow_add, Nat.pow_add]
  have hlow : 2 ^ i * 2 ^ g * hiddenBit ≤ n := hsize.trans_le (Nat.log2_self_le hn)
  have hhigh : n < 2 ^ i * 2 ^ g * (2 * hiddenBit) := by
    rw [Nat.mul_left_comm, hsize, Nat.mul_comm, ← Nat.pow_succ]
    exact Nat.lt_log2_self
  have hbits : nearest false n (2 ^ i) = Float.ofBits (UInt64.ofNat (nearestBits n (2 ^ i))) := by
    simp only [nearest, Bool.false_eq_true, if_false]
  rw [hbits]
  exact normal_of_place hg (nearestBits_of_wide hn (by rwa [Nat.log2_two_pow]) hlow hhigh hg)

/-! ## Whole numbers of any size -/

theorem ofInt_small {n : ℕ} (h : n < 2 ^ 53) : ofInt n = Float.ofNat n := by
  rw [ofInt, if_pos]
  · rfl
  · rwa [Int.natAbs_natCast]

theorem ofInt_large {n : ℕ} (h : ¬n < 2 ^ 53) : ofInt n = nearest false n 1 := by
  rw [ofInt, if_neg]
  · rw [Int.natAbs_natCast, decide_eq_false (Int.not_lt.mpr (Int.natCast_nonneg n))]
  · rwa [Int.natAbs_natCast]

theorem normal_ofInt {n i : ℕ} (hn : n ≠ 0) (h : n < 2 ^ i) (hlow : 67 ≤ i) (hhigh : i ≤ 1021) :
    Normal (-52) (i - 52) (ofInt n) := by
  by_cases hsmall : n < 2 ^ 53
  · rw [ofInt_small hsmall]
    exact (normal_ofNat hn hsmall).mono le_rfl (by omega)
  · have hlog : n.log2 < i := (Nat.log2_lt hn).mpr h
    have hwide : 52 < n.log2 := (Nat.le_log2 hn).mpr (Nat.not_lt.mp hsmall)
    rw [ofInt_large hsmall]
    exact (normal_nearest (i := 0) (g := n.log2 - 52) hn (by omega) (by omega)).mono (by omega) (by omega)

theorem below_ofInt {n i : ℕ} (h : n < 2 ^ i) (hlow : 67 ≤ i) (hhigh : i ≤ 1021) : Below (i - 52) (ofInt n) := by
  by_cases hn : n = 0
  · rw [hn]
    exact Or.inl ⟨.positive, rfl⟩
  · exact (normal_ofInt hn h hlow hhigh).below le_rfl

theorem isInf_divWhole {n d : ℕ} (hn : n < 2 ^ 53) (hd : d ≠ 0) (hd' : d < 2 ^ 53) :
    (Number.divWhole n d).isInf = false := by
  have hden := normal_ofNat hd hd'
  have hquotient : Number.divWhole n d = Float.ofNat n / Float.ofNat d := by
    rw [Number.divWhole, if_neg (by exact_mod_cast hd), if_pos ⟨by rwa [Int.natAbs_natCast], by rwa [Int.natAbs_natCast]⟩]
    rfl
  rw [hquotient]
  by_cases hzero : n = 0
  · have hnum : (Float.ofNat 0).toModel.unpack = .zero .positive := by rfl
    obtain ⟨m, e, hm, hden, -⟩ := hden
    change (Float.ofNat n / Float.ofNat d).toModel.unpack.isInf = false
    rw [hzero, unpack_div, hnum, hden, UnpackedFloat.div, unpack_pack_zero]
    rfl
  · exact ((normal_ofNat hzero hn).div hden (by decide) (by decide)).isInf

theorem isInf_half {n i : ℕ} (h : n < 2 ^ i) (hi : i ≤ 1021) : (Number.divWhole n 2).isInf = false := by
  by_cases hsmall : n < 2 ^ 53
  · exact isInf_divWhole hsmall (by decide) (by decide)
  · have hn : n ≠ 0 := fun h0 => hsmall (by rw [h0]; exact Nat.two_pow_pos 53)
    have hlog : n.log2 < i := (Nat.log2_lt hn).mpr h
    have hwide : 52 < n.log2 := (Nat.le_log2 hn).mpr (Nat.not_lt.mp hsmall)
    have hquotient : Number.divWhole n 2 = nearest false n (2 ^ 1) := by
      rw [Number.divWhole, if_neg (by decide), if_neg]
      · rw [Int.natAbs_natCast, decide_eq_false (Int.not_lt.mpr (Int.natCast_nonneg n))]
        rfl
      · rw [Int.natAbs_natCast]
        exact fun hboth => hsmall hboth.1
    rw [hquotient]
    exact (normal_nearest (i := 1) (g := n.log2 - 53) hn (by omega) (by omega)).isInf

/-! ## Sums and differences -/

theorem Below.mono (h : Below j x) (hjk : j ≤ k) : Below k x := by
  obtain h | ⟨s, m, e, hm, hx, he⟩ := h
  · exact Or.inl h
  · exact Or.inr ⟨s, m, e, hm, hx, he.trans hjk⟩

/-- What stands for less than `2 ^ (k + 53)`, with either sign. -/
def Within (k : ℤ) (u : UnpackedFloat) : Prop := (∃ s, u = .zero s) ∨ ∃ s m e hm, u = .finite s m e hm ∧ e ≤ k

theorem within_zero (s : Sign) : Within k (Float.Model.pack (.zero s)).unpack := Or.inl ⟨s, unpack_pack_zero s⟩

theorem within_finite (s : Sign) {m : ℕ} {e : ℤ} (hm : 0 < m) (hc : Canonical m e) (he : e ≤ k) (hk : k ≤ 971) :
    Within k (Float.Model.pack (.finite s m e hm)).unpack := by
  rw [unpack_pack_finite s hm hc, if_pos (he.trans hk)]
  exact Or.inr ⟨s, m, e, hm, rfl, he⟩

theorem within_round (s : Sign) {m : ℕ} {e : ℤ} (hm : m ≠ 0) (hsize : m.log2 + e ≤ k + 51) (low : -1073 ≤ k)
    (high : k ≤ 971) : Within k (Float.Model.pack (UnpackedFloat.round Format.binary64 s m e)).unpack := by
  obtain ⟨i, hround, hlog, wide⟩ := round_eq s e hm
  have hmi : m * 2 ^ i ≠ 0 := Nat.mul_ne_zero hm (by positivity)
  rw [hround]
  obtain ⟨hzero, -⟩ | ⟨r, e', hr, hfinite, hc, -, he'⟩ := roundWithAccuracy_cases s .exact hmi wide
  · rw [hzero]
    exact within_zero s
  · rw [hfinite]
    exact within_finite s hr hc (by omega) high

theorem within_normalize {n e : ℤ} (zeroSign : Sign) (hsize : n ≠ 0 → n.natAbs.log2 + e ≤ k + 51)
    (low : -1073 ≤ k) (high : k ≤ 971) :
    Within k (Float.Model.pack (UnpackedFloat.normalize Format.binary64 n e zeroSign)).unpack := by
  rw [UnpackedFloat.normalize]
  rcases lt_trichotomy n 0 with hneg | rfl | hpos
  · have hm : (-n).toNat = n.natAbs := by omega
    rw [compare_lt_iff_lt.mpr hneg, hm]
    exact within_round .negative (by omega) (hsize hneg.ne) low high
  · exact within_zero zeroSign
  · have hm : n.toNat = n.natAbs := by omega
    rw [compare_gt_iff_gt.mpr hpos, hm]
    exact within_round .positive (by omega) (hsize hpos.ne') low high

theorem unpack_add (x y : Float) :
    (x + y).toModel.unpack =
      (Float.Model.pack (UnpackedFloat.add Format.binary64 x.toModel.unpack y.toModel.unpack)).unpack := rfl

theorem unpack_sub (x y : Float) :
    (x - y).toModel.unpack =
      (Float.Model.pack (UnpackedFloat.sub Format.binary64 x.toModel.unpack y.toModel.unpack)).unpack := rfl

theorem natAbs_apply (s : Sign) (m : ℕ) : (s.apply (m : ℤ)).natAbs = m := by
  cases s
  · exact (Int.natAbs_neg _).trans (Int.natAbs_natCast m)
  · exact Int.natAbs_natCast m

/-- The size of a sum of two numbers of 53 bits that are taken to the smaller of their exponents. -/
theorem aligned_size {m₁ m₂ : ℕ} {e₁ e₂ n : ℤ} (c₁ : Canonical m₁ e₁) (c₂ : Canonical m₂ e₂) (h₁ : e₁ ≤ k)
    (h₂ : e₂ ≤ k)
    (hn : n.natAbs ≤ m₁ * 2 ^ (e₁ - min e₁ e₂).toNat + m₂ * 2 ^ (e₂ - min e₁ e₂).toNat) (hne : n ≠ 0) :
    n.natAbs.log2 + min e₁ e₂ ≤ k + 53 := by
  obtain ⟨i, hi⟩ : ∃ i : ℕ, k - min e₁ e₂ = i := ⟨(k - min e₁ e₂).toNat, by omega⟩
  have hpart {m : ℕ} {e : ℤ} (hm : m < 2 ^ 53) (he : e ≤ k) : m * 2 ^ (e - min e₁ e₂).toNat < 2 ^ (53 + i) := by
    rw [Nat.pow_add]
    exact Nat.mul_lt_mul_of_lt_of_le hm (Nat.pow_le_pow_right (by decide) (by omega)) (by positivity)
  have hdouble : 2 ^ (54 + i) = 2 ^ (53 + i) + 2 ^ (53 + i) := by
    rw [← Nat.two_mul, ← Nat.pow_succ']
    congr 1
    omega
  have hsum : n.natAbs < 2 ^ (54 + i) := by
    have hp₁ := hpart c₁.below h₁
    have hp₂ := hpart c₂.below h₂
    omega
  have hlog := (Nat.log2_lt (Int.natAbs_ne_zero.mpr hne)).mpr hsum
  omega

theorem Below.add (hx : Below k x) (hy : Below k y) (low : -1075 ≤ k) (high : k ≤ 969) : Below (k + 2) (x + y) := by
  change Within (k + 2) (x + y).toModel.unpack
  rw [unpack_add]
  obtain ⟨s₁, hx⟩ | ⟨s₁, m₁, e₁, h₁, hx, he₁⟩ := hx <;> obtain ⟨s₂, hy⟩ | ⟨s₂, m₂, e₂, h₂, hy, he₂⟩ := hy <;>
    rw [hx, hy] <;> simp only [UnpackedFloat.add]
  · split <;> exact within_zero _
  · exact within_finite _ h₂ (canonical_of_unpack hy) (by omega) (by omega)
  · exact within_finite _ h₁ (canonical_of_unpack hx) (by omega) (by omega)
  · refine within_normalize .positive (fun hne => ?_) (by omega) (by omega)
    have hsize := aligned_size (canonical_of_unpack hx) (canonical_of_unpack hy) he₁ he₂
      ((Int.natAbs_add_le _ _).trans_eq ?_) hne
    · omega
    · simp only [decreaseExponent, Nat.shiftLeft_eq, natAbs_apply]

theorem Below.sub (hx : Below k x) (hy : Below k y) (low : -1075 ≤ k) (high : k ≤ 969) : Below (k + 2) (x - y) := by
  change Within (k + 2) (x - y).toModel.unpack
  rw [unpack_sub]
  obtain ⟨s₁, hx⟩ | ⟨s₁, m₁, e₁, h₁, hx, he₁⟩ := hx <;> obtain ⟨s₂, hy⟩ | ⟨s₂, m₂, e₂, h₂, hy, he₂⟩ := hy <;>
    rw [hx, hy] <;> simp only [UnpackedFloat.sub]
  · split <;> exact within_zero _
  · exact within_finite _ h₂ (canonical_of_unpack hy) (by omega) (by omega)
  · exact within_finite _ h₁ (canonical_of_unpack hx) (by omega) (by omega)
  · refine within_normalize .positive (fun hne => ?_) (by omega) (by omega)
    have hsize := aligned_size (canonical_of_unpack hx) (canonical_of_unpack hy) he₁ he₂
      ((Int.natAbs_sub_le _ _).trans_eq ?_) hne
    · omega
    · simp only [decreaseExponent, Nat.shiftLeft_eq, natAbs_apply]

/-! ## Angles -/

theorem unpack_pack_notANumber : (Float.Model.pack .notANumber).unpack = .notANumber := by rfl

theorem Below.tame (h : Below k x) : Tame k x := Or.inr h

theorem Tame.isInf (h : Tame k x) : x.isInf = false := by
  obtain h | h := h
  · change x.toModel.unpack.isInf = false
    rw [h]
    rfl
  · exact h.isInf

theorem Tame.mono (h : Tame j x) (hjk : j ≤ k) : Tame k x := h.imp_right fun h => h.mono hjk

theorem Tame.mul (hx : Tame j x) (hy : Below k y) (low : -1127 ≤ j + k) (high : j + k + 54 ≤ 971) :
    Tame (j + k + 54) (x * y) := by
  obtain hx | hx := hx
  · refine Or.inl ?_
    rw [unpack_mul, hx, UnpackedFloat.mul, unpack_pack_notANumber]
  · exact Or.inr (hx.mul hy low high)

theorem Tame.add (hx : Tame k x) (hy : Below k y) (low : -1075 ≤ k) (high : k ≤ 969) : Tame (k + 2) (x + y) := by
  obtain hx | hx := hx
  · refine Or.inl ?_
    rw [unpack_add, hx, UnpackedFloat.add, unpack_pack_notANumber]
  · exact Or.inr (hx.add hy low high)

theorem Tame.sub (hx : Tame k x) (hy : Below k y) (low : -1075 ≤ k) (high : k ≤ 969) : Tame (k + 2) (x - y) := by
  obtain hx | hx := hx
  · refine Or.inl ?_
    rw [unpack_sub, hx, UnpackedFloat.sub, unpack_pack_notANumber]
  · exact Or.inr (hx.sub hy low high)

theorem unpack_pi : Number.piFloat.toModel.unpack = .finite .positive 7074237752028440 (-51) (by decide) := by rfl

theorem unpack_neg_pi : (-Number.piFloat).toModel.unpack = .finite .negative 7074237752028440 (-51) (by decide) := by
  rfl

theorem lt_negative_iff {m₁ m₂ : ℕ} {e₁ e₂ : ℤ} {h₁ : 0 < m₁} {h₂ : 0 < m₂} :
    UnpackedFloat.lt (.finite .negative m₁ e₁ h₁) (.finite .negative m₂ e₂ h₂) = true ↔
      e₂ < e₁ ∨ e₂ = e₁ ∧ m₂ < m₁ := by
  change (some ((compare e₁ e₂).then (compare m₁ m₂)).swap == some Ordering.lt) = true ↔ _
  rw [beq_iff_eq, Option.some.injEq, Ordering.swap_eq_lt, Ordering.then_eq_gt, compare_gt_iff_gt,
    compare_eq_iff_eq, compare_gt_iff_gt]
  omega

/-- A double that is not beyond half a turn on either side is bounded, or no number. -/
theorem tame_of_half_turn (hlow : ¬x < -Number.piFloat) (hhigh : ¬Number.piFloat < x) : Tame (-51) x := by
  rw [lt_iff, unpack_neg_pi] at hlow
  rw [lt_iff, unpack_pi] at hhigh
  unfold Tame Below
  cases hx : x.toModel.unpack with
  | notANumber => exact Or.inl rfl
  | zero s => exact Or.inr (Or.inl ⟨s, rfl⟩)
  | infinity s =>
    rw [hx] at hlow hhigh
    cases s
    · exact absurd rfl hlow
    · exact absurd rfl hhigh
  | finite s m e hm =>
    rw [hx] at hlow hhigh
    cases s with
    | negative =>
      rw [lt_negative_iff] at hlow
      exact Or.inr (Or.inr ⟨_, m, e, hm, rfl, by omega⟩)
    | positive =>
      rw [lt_finite_iff] at hhigh
      exact Or.inr (Or.inr ⟨_, m, e, hm, rfl, by omega⟩)

theorem below_pi : Below (-51) Number.piFloat := Or.inr ⟨_, _, _, _, unpack_pi, le_rfl⟩

theorem tame_angle (y x : Float) : Tame (-51) (Number.angleFloat y x) := by
  unfold Number.angleFloat
  dsimp only
  split
  · exact Or.inr (Or.inr ⟨_, _, _, _, unpack_neg_pi, le_rfl⟩)
  · rename_i hlow
    split
    · exact below_pi.tame
    · rename_i hhigh
      exact tame_of_half_turn hlow hhigh

/-! ## Positive doubles -/

theorem negative_bits {bits : BitVec 64} (h : Sign.ofBitVec (@unpackSign Format.binary64 bits) = .negative) :
    Nat.pow 2 63 ≤ bits.toNat := by
  by_contra hlow
  rw [unpackSign_of_small (Nat.not_le.mp hlow)] at h
  cases h

theorem view_of_unpack_negative {m : ℕ} {e : ℤ} {hm : 0 < m}
    (h : x.toModel.unpack = .finite .negative m e hm) : ∃ m' e', view x = .finite true m' e' ∧ 0 < m' := by
  have hsign (h : Sign.ofBitVec (@unpackSign Format.binary64 x.toModel.toBits.toBitVec) = .negative) :
      decide (Nat.pow 2 63 ≤ x.toBits.toNat) = true := decide_eq_true (negative_bits h)
  have hexponent := toNat_unpackExponent x.toModel.toBits.toBitVec
  have hmantissa := toNat_unpackMantissa x.toModel.toBits.toBitVec
  unfold Float.Model.unpack UnpackedFloat.unpack at h
  dsimp only at h
  split at h
  · split at h <;> cases h
  · rename_i hfinite
    have htop : x.toBits.toNat / hiddenBit % 2048 ≠ 2047 := fun htop =>
      hfinite (BitVec.eq_of_toNat_eq (hexponent.trans htop))
    split at h
    · rename_i hzero
      split at h
      · cases h
      · rename_i hrest
        rw [UnpackedFloat.finite.injEq] at h
        have hleast : x.toBits.toNat / hiddenBit % 2048 = 0 := hexponent.symm.trans (by rw [hzero]; rfl)
        refine ⟨x.toBits.toNat % hiddenBit, -1074, ?_, ?_⟩
        · unfold view viewBits
          dsimp only
          rw [if_neg htop, if_pos hleast, hsign h.1]
        · refine Nat.pos_of_ne_zero fun h0 => hrest (BitVec.eq_of_toNat_eq (hmantissa.trans ?_))
          exact h0
    · rename_i hnonzero
      rw [UnpackedFloat.finite.injEq] at h
      have hleast : x.toBits.toNat / hiddenBit % 2048 ≠ 0 := fun hleast =>
        hnonzero (BitVec.eq_of_toNat_eq (hexponent.trans hleast))
      refine ⟨hiddenBit + x.toBits.toNat % hiddenBit, (x.toBits.toNat / hiddenBit % 2048 : ℕ) - 1075, ?_, ?_⟩
      · unfold view viewBits
        dsimp only
        rw [if_neg htop, if_neg hleast, hsign h.1]
      · exact Nat.add_pos_left (Nat.pow_pos (by decide)) _

/-- A bounded double that is neither zero nor below it by comparison is a positive number. -/
theorem Below.positive (hx : Below k x) (hne : Number.compareWhole? 0 x ≠ some .eq)
    (hgt : Number.compareWhole? 0 x ≠ some .gt) : ∃ m e hm, x.toModel.unpack = .finite .positive m e hm := by
  obtain ⟨s, hx⟩ | ⟨s, m, e, hm, hx, -⟩ := hx
  · have hzero : (x == 0) = true := by
      change UnpackedFloat.beq x.toModel.unpack (0 : Float).toModel.unpack = true
      rw [hx]
      cases s <;> rfl
    exact absurd (compareWhole?_zero hzero) hne
  · cases s with
    | positive => exact ⟨m, e, hm, hx⟩
    | negative =>
      obtain ⟨m', e', hview, hm'⟩ := view_of_unpack_negative hx
      refine absurd ?_ hgt
      unfold Number.compareWhole?
      rw [hview]
      have hnum : 0 < (fraction m' e').1 := by
        unfold fraction
        split
        · exact hm'
        · exact Nat.mul_pos hm' (Nat.pow_pos (by decide))
      refine congrArg some ?_
      unfold Number.compareExact
      simp only [if_true, Int.zero_mul]
      exact compare_gt_iff_gt.mpr (by omega)

theorem zero_lt_positive {s : Sign} (hx : x.toModel.unpack = .zero s) (hy : Normal lo hi y) : x < y := by
  obtain ⟨m, e, hm, hy, -⟩ := hy
  rw [lt_iff, hx, hy]
  cases s <;> rfl

/-- What does not lie below a normal double is not zero. -/
theorem ne_zero_of_not_lt (hy : Normal lo hi y) (h : ¬x < y) : (x == 0) = false := by
  cases hzero : x == 0 with
  | false => rfl
  | true =>
    obtain ⟨s, hx⟩ := unpack_of_eq_zero hzero
    exact absurd (zero_lt_positive hx hy) h

end NodeLink.Binary64
