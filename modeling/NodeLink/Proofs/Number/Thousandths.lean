import NodeLink.Proofs.Geometry.ExactTenths
import NodeLink.Proofs.Number.Doubles

/-!
# Compact texts of doubles

The compact text of a double is that of a whole number of thousandths: the nearest one, and of two that are equally near
the even one. It is the shortest plain decimal of that number, so numbers of thousandths have the same text only if they
are the same.
-/

namespace NodeLink

/-- A number is rounded to a whole one. A half goes to the even neighbour. -/
structure RoundsTo (r : ℝ) (k : ℤ) : Prop where
  near : |r - k| ≤ 1 / 2
  even : |r - k| = 1 / 2 → Even k

namespace RoundsTo

variable {r : ℝ} {j k : ℤ}

theorem neg (h : RoundsTo r k) : RoundsTo (-r) (-k) := by
  have hoff : |-r - (-k : ℤ)| = |r - k| := by
    rw [← abs_neg]
    push_cast
    congr 1
    ring
  constructor
  · rw [hoff]
    exact h.near
  · rw [hoff]
    exact fun hhalf => (h.even hhalf).neg

theorem one_le_distance (hne : j ≠ k) (r : ℝ) : 1 ≤ |r - j| + |r - k| := by
  have hapart : 1 ≤ |j - k| := Int.one_le_abs (sub_ne_zero.mpr hne)
  calc (1 : ℝ) ≤ |(j : ℝ) - k| := by exact_mod_cast hapart
    _ ≤ |(j : ℝ) - r| + |r - k| := abs_sub_le _ _ _
    _ = |r - j| + |r - k| := by rw [abs_sub_comm]

theorem unique (hj : RoundsTo r j) (hk : RoundsTo r k) : j = k := by
  by_contra hne
  have hapart := one_le_distance hne r
  have hnearj := hj.near
  have hneark := hk.near
  -- Both are a half away, so both are even, and there is another whole number between them.
  obtain ⟨a, ha⟩ := hj.even (by linarith)
  obtain ⟨b, hb⟩ := hk.even (by linarith)
  have hclose : |j - k| ≤ 1 := by
    have hsum : |(j : ℝ) - k| ≤ 1 := by
      calc |(j : ℝ) - k| ≤ |(j : ℝ) - r| + |r - k| := abs_sub_le _ _ _
        _ ≤ 1 := by rw [abs_sub_comm (j : ℝ)]; linarith
    exact_mod_cast hsum
  have := abs_le.mp hclose
  omega

theorem nearest (h : RoundsTo r k) (j : ℤ) : |r - k| ≤ |r - j| := by
  by_cases hj : j = k
  · rw [hj]
  · have hapart := one_le_distance hj r
    have hnear := h.near
    linarith

theorem nearest_thousandth (h : RoundsTo (1000 * r) k) (j : ℤ) : |r - k / 1000| ≤ |r - j / 1000| := by
  have hscaled (i : ℤ) : |1000 * r - i| = 1000 * |r - i / 1000| := by
    rw [← abs_of_pos (by norm_num : (0 : ℝ) < 1000), ← abs_mul, abs_of_pos (by norm_num : (0 : ℝ) < 1000)]
    congr 1
    ring
  have hnearest := h.nearest j
  rw [hscaled, hscaled] at hnearest
  linarith

end RoundsTo

namespace Binary64

theorem roundDiv_even {num den : ℕ} (hden : 0 < den)
    (h : 2 * num = 2 * (roundDiv num den * den) + den ∨ 2 * (roundDiv num den * den) = 2 * num + den) :
    Even (roundDiv num den) := by
  have hdivision := Nat.div_add_mod' num den
  have hrest := Nat.mod_lt num hden
  have hnext : (num / den + 1) * den = num / den * den + den := Nat.succ_mul _ _
  have hround : roundDiv num den = if den < 2 * (num % den) then num / den + 1
      else if 2 * (num % den) = den then num / den + num / den % 2 else num / den := rfl
  split_ifs at hround with hmore hhalf
  · rw [hround] at h
    omega
  · rw [hround, Nat.even_iff]
    omega
  · rw [hround] at h
    omega

theorem roundDiv_roundsTo {den : ℕ} (num : ℕ) (hden : 0 < den) :
    RoundsTo ((num : ℝ) / den) (roundDiv num den : ℕ) := by
  have hpos : (0 : ℝ) < den := by exact_mod_cast hden
  have hoff : |(num : ℝ) / den - ((roundDiv num den : ℕ) : ℤ)| = |(num : ℝ) - roundDiv num den * den| / den := by
    rw [← abs_of_pos hpos, ← abs_div, abs_of_pos hpos, sub_div, mul_div_cancel_right₀ _ hpos.ne', Int.cast_natCast]
  obtain ⟨hupper, hlower⟩ := roundDiv_half num hden
  have hupper' : 2 * ((roundDiv num den : ℝ) * den) ≤ 2 * num + den := by exact_mod_cast hupper
  have hlower' : 2 * (num : ℝ) ≤ 2 * (roundDiv num den * den) + den := by exact_mod_cast hlower
  constructor
  · rw [hoff, div_le_iff₀ hpos, abs_le]
    constructor <;> linarith
  · rw [hoff, div_eq_iff hpos.ne']
    intro hhalf
    rw [Int.even_coe_nat]
    apply roundDiv_even hden
    rcases abs_choice ((num : ℝ) - roundDiv num den * den) with habs | habs
    · left
      have heq : 2 * (num : ℝ) = 2 * (roundDiv num den * den) + den := by linarith
      exact_mod_cast heq
    · right
      have heq : 2 * ((roundDiv num den : ℝ) * den) = 2 * num + den := by linarith
      exact_mod_cast heq

end Binary64

/-! ### Thousandths and their texts -/

namespace FixedText

/-- There is a zero in front only where a single digit stands before the point. -/
theorem length_placed_of_zero {places units : ℕ} (h : (placed (places + 1) units).head? = some '0') :
    (placed (places + 1) units).length = places + 3 := by
  let padded := padLeft (places + 1 + 1) (Text.digitsOf units)
  have hpadded : padded.length = places + 2 - (Text.digitsOf units).length + (Text.digitsOf units).length := by
    simp only [padded, padLeft, List.length_append, List.length_replicate]
  have hplaced : placed (places + 1) units =
      padded.take (padded.length - (places + 1)) ++ '.' :: padded.drop (padded.length - (places + 1)) := rfl
  have hlength : (placed (places + 1) units).length = padded.length + 1 := by
    rw [hplaced, List.length_append, List.length_cons, List.length_take, List.length_drop]
    omega
  have hhead : padded.head? = some '0' := by
    rw [hplaced, List.head?_append_of_ne_nil _ (List.ne_nil_of_length_pos (by rw [List.length_take]; omega)),
      List.head?_take, if_neg (by omega)] at h
    exact h
  by_cases hshort : (Text.digitsOf units).length < places + 2
  · omega
  · -- Nothing is put in front of so many digits, so the first one is that of the number, and it is no zero.
    have hself : padded = Text.digitsOf units := by
      have hzeros : places + 1 + 1 - (Text.digitsOf units).length = 0 := by omega
      simp only [padded, padLeft, hzeros, List.replicate_zero, List.nil_append]
    have hpos : 0 < units := by
      rw [Nat.pos_iff_ne_zero]
      rintro rfl
      exact absurd (show (Text.digitsOf 0).length = 1 from rfl) (by omega)
    obtain ⟨c, cs, hdigits, hc⟩ := Text.digitsOf_head hpos
    rw [hself, hdigits] at hhead
    exact absurd (Option.some.inj hhead) hc

end FixedText

namespace CompactText

open FixedText

/-- Digits before the point without a needless zero, and up to three behind it of which the last is no zero. -/
structure Shortest (front places : List Char) : Prop where
  digits : ∀ c ∈ front ++ places, c.isDigit = true
  front_ne : front ≠ []
  lead : front.head? = some '0' → front = ['0']
  few : places.length ≤ 3
  last : places.getLast? ≠ some '0'

/-- A decimal with a minus or without a sign, in the shortest form, and no zero with a minus. -/
def IsCompact (cs : List Char) : Prop :=
  cs ≠ ['-', '0'] ∧ ∃ neg front places, Shortest front places ∧ cs = signed neg (front ++ pointed places)

variable {front places : List Char}

/-- The text of a number of thousandths: without zeros at the end, and without the sign of a zero. -/
def ofThousandths (k : ℤ) : List Char :=
  if k = 0 then ['0'] else withoutEndZeros (signed (decide (k < 0)) (placed 3 k.natAbs))

/-- Thousandths are written in the shortest form, which has their digits before and behind the point. -/
theorem shortest_placed (neg : Bool) (units : ℕ) : ∃ front places, Shortest front places ∧
    withoutEndZeros (signed neg (placed 3 units)) = signed neg (front ++ pointed places) ∧
      (Text.digitsValue (front ++ places) : ℚ) / 10 ^ places.length = units / 1000 := by
  obtain ⟨front, places, k, hplaced, hdigits, hne, hlast, hthree, hvalue⟩ := placed_cut units
  refine ⟨front, places, ⟨hdigits, hne, ?_, by omega, hlast⟩, ?_, ?_⟩
  · intro hzero
    have hhead : (placed 3 units).head? = some '0' := by rw [hplaced, List.head?_append_of_ne_nil _ hne, hzero]
    have hshort : (placed 3 units).length = 5 := length_placed_of_zero hhead
    rw [hplaced, List.length_append, List.length_cons, List.length_append, List.length_replicate, hthree] at hshort
    obtain ⟨c, rfl⟩ := List.length_eq_one_iff.mp (show front.length = 1 by omega)
    rw [Option.some.inj hzero]
  · rw [hplaced, withoutEndZeros_zeros hdigits hne hlast]
  · have hpower : (1000 : ℚ) = 10 ^ places.length * 10 ^ k := by
      rw [← pow_add, hthree]
      norm_num
    rw [← hvalue, hpower, Nat.cast_mul, Nat.cast_pow, Nat.cast_ofNat, mul_div_mul_right _ _ (by positivity)]

theorem value?_shortest (h : Shortest front places) (neg : Bool) :
    PlainDecimal.value? (signed neg (front ++ pointed places)) =
      some (withSign neg (Text.digitsValue (front ++ places) / 10 ^ places.length)) := by
  obtain ⟨hfront, hplaces⟩ := List.forall_mem_append.mp h.digits
  apply PlainDecimal.value?_signed hfront h.front_ne
  unfold pointed
  split
  · rename_i hnil
    rw [hnil]
    rfl
  · rename_i hne
    simpa [PlainDecimal.places?, hne] using hplaces

theorem value?_zero (neg : Bool) : PlainDecimal.value? (signed neg ['0']) = some 0 := by
  have hread : PlainDecimal.value? (signed neg ['0']) = some (withSign neg ((0 : ℕ) / 10 ^ 0)) := by
    cases neg <;> rfl
  rw [hread]
  simp [withSign]

theorem value?_ofThousandths (k : ℤ) : PlainDecimal.value? (ofThousandths k) = some ((k : ℚ) / 1000) := by
  by_cases hk : k = 0
  · rw [ofThousandths, if_pos hk, hk, Int.cast_zero, zero_div]
    exact value?_zero false
  · obtain ⟨front, places, hshortest, htext, hvalue⟩ := shortest_placed (decide (k < 0)) k.natAbs
    have hsize : ((k.natAbs : ℕ) : ℚ) / 1000 = |(k : ℚ) / 1000| := by
      rw [Nat.cast_natAbs, Int.cast_abs, abs_div, abs_of_pos (by norm_num : (0 : ℚ) < 1000)]
    have hsign : decide (k < 0) = decide ((k : ℚ) / 1000 < 0) := by
      rw [decide_eq_decide, div_neg_iff]
      norm_num
    rw [ofThousandths, if_neg hk, htext, value?_shortest hshortest, hvalue, hsize, hsign, ExactTenths.withSign_abs]

theorem isCompact_ofThousandths (k : ℤ) : IsCompact (ofThousandths k) := by
  by_cases hk : k = 0
  · rw [ofThousandths, if_pos hk]
    exact ⟨by decide, false, ['0'], [], ⟨List.all_eq_true.mp rfl, nofun, fun _ => rfl, by decide, nofun⟩, rfl⟩
  · constructor
    · -- A zero with a minus would be read as zero.
      intro hminus
      have hread := value?_ofThousandths k
      rw [hminus] at hread
      have hzero : (k : ℚ) / 1000 = 0 := Option.some.inj (hread.symm.trans (value?_zero true))
      exact hk (by simpa using hzero)
    · obtain ⟨front, places, hshortest, htext, -⟩ := shortest_placed (decide (k < 0)) k.natAbs
      exact ⟨_, front, places, hshortest, by rw [ofThousandths, if_neg hk, htext]⟩

/-- No two numbers of thousandths have the same text: it is read as one of them. -/
theorem ofThousandths_injective : Function.Injective ofThousandths := by
  intro j k h
  have hread := value?_ofThousandths j
  rw [h, value?_ofThousandths, Option.some.injEq, div_left_inj' (by norm_num : (1000 : ℚ) ≠ 0)] at hread
  exact_mod_cast hread.symm

end CompactText

namespace FloatView

/-- The whole number of thousandths next to what a double stands for. -/
def thousandths : FloatView → ℤ
  | .finite neg m e =>
    let units : ℕ := FixedText.unitsOf 3 (Binary64.fraction m e).1 (Binary64.fraction m e).2
    if neg then -units else units
  | _ => 0

end FloatView

namespace CompactText

open FixedText

/-- Units with a sign in front are a number of thousandths, unless they are none. -/
theorem withoutEndZeros_placed (neg : Bool) {units : ℕ} (hpos : 0 < units) :
    withoutEndZeros (signed neg (placed 3 units)) = ofThousandths (if neg then -(units : ℤ) else units) := by
  have hk : (if neg then -(units : ℤ) else units) ≠ 0 := by split <;> omega
  have hsign : decide ((if neg then -(units : ℤ) else units) < 0) = neg := by
    cases neg with
    | true => exact decide_eq_true (show -(units : ℤ) < 0 by omega)
    | false => exact decide_eq_false (show ¬(units : ℤ) < 0 by omega)
  have hsize : (if neg then -(units : ℤ) else units).natAbs = units := by split <;> omega
  rw [ofThousandths, if_neg hk, hsign, hsize]

theorem viewText_thousandths (neg : Bool) (m : ℕ) (e : ℤ) :
    viewText (.finite neg m e) = ofThousandths (FloatView.thousandths (.finite neg m e)) := by
  have hview : viewText (.finite neg m e) =
      if withoutEndZeros (fixedView 3 (.finite neg m e)) = ['-', '0'] ∨
        withoutEndZeros (fixedView 3 (.finite neg m e)) = [] then ['0']
      else withoutEndZeros (fixedView 3 (.finite neg m e)) := rfl
  have hfixed : fixedView 3 (.finite neg m e) = signed neg (placed 3
      (unitsOf 3 (Binary64.fraction m e).1 (Binary64.fraction m e).2)) := rfl
  rw [hview, hfixed, FloatView.thousandths]
  generalize unitsOf 3 (Binary64.fraction m e).1 (Binary64.fraction m e).2 = units
  rcases Nat.eq_zero_or_pos units with rfl | hpos
  · cases neg <;> rfl
  · rw [withoutEndZeros_placed neg hpos, if_neg]
    rintro (hminus | hnil)
    · exact (isCompact_ofThousandths _).1 hminus
    · have hread := value?_ofThousandths (if neg then -(units : ℤ) else units)
      rw [hnil] at hread
      cases hread

end CompactText

namespace Binary64

/-- A finite double is rounded to the thousandths next to it. -/
theorem thousandths_roundsTo {x : Float} (h : IsFinite x) : RoundsTo (1000 * toReal x) (view x).thousandths := by
  obtain ⟨neg, m, e, hview⟩ := h
  have hunits : RoundsTo (1000 * (m * ((2 : ℕ) : ℝ) ^ e))
      (FixedText.unitsOf 3 (fraction m e).1 (fraction m e).2 : ℕ) := by
    have hround := roundDiv_roundsTo ((fraction m e).1 * 1000) (fraction_pos m e)
    rw [← fraction_exact]
    convert hround using 1
    · push_cast
      ring
    · rfl
  rw [hview, toReal, hview]
  cases neg with
  | false => simpa [FloatView.thousandths] using hunits
  | true => simpa [FloatView.thousandths] using hunits.neg

end Binary64

theorem Value.compact_real {x : Float} (h : Binary64.IsFinite x) :
    (Value.real x).compact = .ok (CompactText.ofThousandths (Binary64.view x).thousandths) := by
  obtain ⟨neg, m, e, hview⟩ := h
  rw [hview, ← CompactText.viewText_thousandths, ← hview]
  rfl

/-- The compact text of a finite double is a decimal in the shortest form. It stands for a whole number of thousandths
to which the double is rounded, so none is nearer, and two doubles have the same text if and only if they are rounded
to the same number. -/
theorem compact_texts_are_canonical :
    (∀ x, Binary64.IsFinite x → ∃ text, ∃ k : ℤ, (Value.real x).compact = .ok text ∧ CompactText.IsCompact text ∧
      PlainDecimal.value? text = some ((k : ℚ) / 1000) ∧ RoundsTo (1000 * Binary64.toReal x) k ∧
        ∀ j : ℤ, |Binary64.toReal x - k / 1000| ≤ |Binary64.toReal x - j / 1000|) ∧
    ∀ x y, Binary64.IsFinite x → Binary64.IsFinite y → ((Value.real x).compact = (Value.real y).compact ↔
      ∃ k, RoundsTo (1000 * Binary64.toReal x) k ∧ RoundsTo (1000 * Binary64.toReal y) k) := by
  constructor
  · intro x hx
    have hround := Binary64.thousandths_roundsTo hx
    exact ⟨_, _, Value.compact_real hx, CompactText.isCompact_ofThousandths _, CompactText.value?_ofThousandths _, hround,
      hround.nearest_thousandth⟩
  · intro x y hx hy
    have hroundx := Binary64.thousandths_roundsTo hx
    have hroundy := Binary64.thousandths_roundsTo hy
    rw [Value.compact_real hx, Value.compact_real hy, Except.ok.injEq, CompactText.ofThousandths_injective.eq_iff]
    constructor
    · exact fun hsame => ⟨_, hroundx, hsame ▸ hroundy⟩
    · rintro ⟨k, hx, hy⟩
      rw [hroundx.unique hx, hroundy.unique hy]

/-- -0.0625 is halfway between two thousandths and gets the even one. What is next to zero on either side of it is
written without a sign. -/
theorem compact_texts_halfway_and_next_to_zero :
    (∃ k : ℤ, (Value.real (Float.ofBits 0xBFB0000000000000)).compact = .ok ['-', '0', '.', '0', '6', '2'] ∧
      PlainDecimal.value? ['-', '0', '.', '0', '6', '2'] = some ((k : ℚ) / 1000) ∧
        RoundsTo (1000 * Binary64.toReal (Float.ofBits 0xBFB0000000000000)) k) ∧
    (Value.real (Float.ofBits 0xBF3A36E2EB1C432D)).compact = .ok ['0'] ∧
    ∃ k, RoundsTo (1000 * Binary64.toReal (Float.ofBits 0xBF3A36E2EB1C432D)) k ∧
      RoundsTo (1000 * Binary64.toReal (Float.ofBits 0x3F3A36E2EB1C432D)) k := by
  obtain ⟨text, k, htext, -, hread, hround, -⟩ :=
    compact_texts_are_canonical.1 (Float.ofBits 0xBFB0000000000000) ⟨_, _, _, rfl⟩
  have hhalf : (Value.real (Float.ofBits 0xBFB0000000000000)).compact = .ok ['-', '0', '.', '0', '6', '2'] :=
    congrArg Except.ok (by decide +kernel)
  have hbelow : (Value.real (Float.ofBits 0xBF3A36E2EB1C432D)).compact = .ok ['0'] :=
    congrArg Except.ok (by decide +kernel)
  have habove : (Value.real (Float.ofBits 0x3F3A36E2EB1C432D)).compact = .ok ['0'] :=
    congrArg Except.ok (by decide +kernel)
  obtain rfl : text = ['-', '0', '.', '0', '6', '2'] := Except.ok.inj (htext.symm.trans hhalf)
  have hsame := (compact_texts_are_canonical.2 (Float.ofBits 0xBF3A36E2EB1C432D) (Float.ofBits 0x3F3A36E2EB1C432D)
    ⟨_, _, _, rfl⟩ ⟨_, _, _, rfl⟩).mp (hbelow.trans habove.symm)
  exact ⟨⟨k, hhalf, hread, hround⟩, hbelow, hsame⟩

end NodeLink
