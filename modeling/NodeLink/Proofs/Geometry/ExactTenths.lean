import NodeLink.Geometry.PathText
import NodeLink.Proofs.Geometry.PathReading
import NodeLink.Proofs.Text.Digits
import Mathlib.Data.Rat.Floor
import Mathlib.Tactic.FieldSimp
import Mathlib.Tactic.Linarith
import Mathlib.Tactic.Ring

/-!
# Tenths of exact numbers

Rational numbers as coordinates of path data. They are rounded and written as doubles are, but nothing is lost
in between: a rational is off its nearest tenth by no more than half of one, a tenth is its own nearest tenth,
and the text of a tenth stands for this tenth. Plain decimals stand for what they are read as.
-/

namespace NodeLink

/-- The number with a sign in front. -/
def withSign (neg : Bool) (q : ℚ) : ℚ := if neg then -q else q

/-! ## Rounding -/

namespace Binary64

theorem roundDiv_half {den : ℕ} (num : ℕ) (hden : 0 < den) :
    2 * (roundDiv num den * den) ≤ 2 * num + den ∧ 2 * num ≤ 2 * (roundDiv num den * den) + den := by
  have hdivision := Nat.div_add_mod' num den
  have hrest := Nat.mod_lt num hden
  have hnext : (num / den + 1) * den = num / den * den + den := Nat.succ_mul _ _
  unfold roundDiv
  dsimp only
  split
  · omega
  · split
    · rcases Nat.mod_two_eq_zero_or_one (num / den) with heven | hodd
      · rw [heven, Nat.add_zero]
        omega
      · rw [hodd]
        omega
    · omega

theorem roundDiv_mul {den : ℕ} (k : ℕ) (hden : 0 < den) : roundDiv (k * den) den = k := by
  have hrest : k * den % den = 0 := Nat.mul_mod_left k den
  have hquotient : k * den / den = k := Nat.mul_div_cancel k hden
  simp only [roundDiv, hrest, hquotient]
  rw [if_neg (by omega), if_neg (by omega)]

end Binary64

namespace ExactTenths

open FixedText Number

/-- How many tenths a number is, to the nearest and without its sign. -/
def units (q : ℚ) : ℕ := unitsOf 1 q.num.natAbs q.den

def nearestTenth (q : ℚ) : ℚ := withSign (decide (q < 0)) (units q / 10)

/-- The number that a text stands for, if it is a decimal. -/
def read? (text : List Char) : Option ℚ :=
  let (neg, cs) := takeSign (trimNumber text)
  (decimalParts? cs).map fun (digits, exponent) => withSign neg (digits * 10 ^ exponent)

instance : Coordinate ℚ where
  zero := 0
  isZero q := q == 0
  read? := read?
  nearestTenth := nearestTenth
  oneDecimal q := signed (decide (q < 0)) (placed 1 (units q))

/-- A whole number of tenths. -/
def IsTenth (q : ℚ) : Prop := ∃ k : ℤ, q = k / 10

variable {q r : ℚ}

theorem IsTenth.sub (hq : IsTenth q) (hr : IsTenth r) : IsTenth (q - r) := by
  obtain ⟨j, rfl⟩ := hq
  obtain ⟨k, rfl⟩ := hr
  exact ⟨j - k, by push_cast; ring⟩

theorem withSign_abs (q : ℚ) : withSign (decide (q < 0)) |q| = q := by
  unfold withSign
  split
  · rename_i hneg
    rw [abs_of_neg (of_decide_eq_true hneg), neg_neg]
  · rename_i hpos
    exact abs_of_nonneg (not_lt.mp (by simpa using hpos))

theorem abs_withSign_sub (neg : Bool) (q r : ℚ) : |withSign neg q - withSign neg r| = |q - r| := by
  cases neg with
  | false => rfl
  | true =>
    change |-q - -r| = |q - r|
    rw [← abs_neg (q - r)]
    congr 1
    ring

theorem abs_eq_fraction (q : ℚ) : |q| = (q.num.natAbs : ℚ) / q.den := by
  have hsize : ((q.num.natAbs : ℤ) : ℚ) = |(q.num : ℚ)| := by rw [Int.natCast_natAbs, Int.cast_abs]
  calc |q| = |(q.num : ℚ) / q.den| := by rw [Rat.num_div_den]
    _ = |(q.num : ℚ)| / q.den := by rw [abs_div, Nat.abs_cast]
    _ = (q.num.natAbs : ℚ) / q.den := by rw [← hsize, Int.cast_natCast]

theorem abs_nearestTenth_sub (q : ℚ) : |nearestTenth q - q| ≤ 1 / 20 := by
  have hden : (0 : ℚ) < q.den := by exact_mod_cast q.den_pos
  obtain ⟨hupper, hlower⟩ := Binary64.roundDiv_half (q.num.natAbs * 10) q.den_pos
  have hunits : Binary64.roundDiv (q.num.natAbs * 10) q.den = units q := rfl
  rw [hunits] at hupper hlower
  have hupper' : 2 * ((units q : ℚ) * q.den) ≤ 2 * (q.num.natAbs * 10) + q.den := by exact_mod_cast hupper
  have hlower' : 2 * ((q.num.natAbs : ℚ) * 10) ≤ 2 * (units q * q.den) + q.den := by exact_mod_cast hlower
  have hsize : (q.num.natAbs : ℚ) = abs q * q.den := by rw [abs_eq_fraction, div_mul_cancel₀ _ hden.ne']
  rw [hsize] at hupper' hlower'
  have hoff : |nearestTenth q - q| = |(units q : ℚ) / 10 - abs q| := by
    have h := abs_withSign_sub (decide (q < 0)) (units q / 10) (abs q)
    rwa [withSign_abs] at h
  rw [hoff, abs_le]
  constructor
  · have hscaled : (20 * abs q) * q.den ≤ (2 * units q + 1) * q.den := by linarith
    have := le_of_mul_le_mul_right hscaled hden
    linarith
  · have hscaled : (2 * (units q : ℚ)) * q.den ≤ (20 * abs q + 1) * q.den := by linarith
    have := le_of_mul_le_mul_right hscaled hden
    linarith

theorem isTenth_nearestTenth (q : ℚ) : IsTenth (nearestTenth q) := by
  unfold nearestTenth withSign
  split
  · exact ⟨-units q, by push_cast; ring⟩
  · exact ⟨units q, by push_cast; ring⟩

theorem units_of_isTenth (h : IsTenth q) : (units q : ℚ) / 10 = |q| := by
  obtain ⟨k, hk⟩ := h
  have hden : (q.den : ℚ) ≠ 0 := by exact_mod_cast q.den_ne_zero
  have hten : q.num * 10 = k * q.den := by
    have hfraction : (q.num : ℚ) / q.den = k / 10 := by rw [Rat.num_div_den, hk]
    rw [div_eq_div_iff hden (by norm_num)] at hfraction
    exact_mod_cast hfraction
  have hsize : q.num.natAbs * 10 = k.natAbs * q.den := by
    have h := congrArg Int.natAbs hten
    simpa [Int.natAbs_mul] using h
  have hunits : units q = k.natAbs := by
    change Binary64.roundDiv (q.num.natAbs * 10) q.den = _
    rw [hsize, Binary64.roundDiv_mul _ q.den_pos]
  rw [hunits, hk, abs_div, Nat.cast_natAbs, Int.cast_abs]
  norm_num

theorem nearestTenth_of_isTenth (h : IsTenth q) : nearestTenth q = q := by
  rw [nearestTenth, units_of_isTenth h, withSign_abs]

end ExactTenths

/-! ## Plain decimals -/

namespace PlainDecimal

open Number

/-- The digits behind the point of a decimal, which has none or one. -/
def places? (whole : Bool) : List Char → Option (List Char)
  | [] => if whole then some [] else none
  | '.' :: places => if places.isEmpty || !places.all Char.isDigit then none else some places
  | _ :: _ => none

/-- The number that a plain decimal stands for: a sign, digits, and a point with digits. -/
def value? (text : List Char) : Option ℚ :=
  let (neg, cs) := takeSign text
  let front := cs.takeWhile Char.isDigit
  (places? (!front.isEmpty) (cs.dropWhile Char.isDigit)).map fun places =>
    withSign neg (Text.digitsValue (front ++ places) / 10 ^ places.length)

variable {text front places tail : List Char} {q : ℚ}

/-- The characters of plain decimals. -/
def isNumeral (c : Char) : Bool := c.isDigit || c == '.' || c == '-' || c == '+'

theorem takeWhile_digits (hfront : ∀ c ∈ front, c.isDigit = true) (htail : ∀ c ∈ tail.head?, c.isDigit = false) :
    (front ++ tail).takeWhile Char.isDigit = front ∧ (front ++ tail).dropWhile Char.isDigit = tail := by
  rw [List.takeWhile_append_of_pos hfront, List.dropWhile_append_of_pos hfront]
  cases tail with
  | nil => simp
  | cons c tail => simp [htail c rfl]

theorem places?_eq_some {whole : Bool} (h : places? whole tail = some places) :
    whole = true ∧ tail = [] ∧ places = [] ∨
      tail = '.' :: places ∧ places ≠ [] ∧ ∀ c ∈ places, c.isDigit = true := by
  unfold places? at h
  split at h
  · split_ifs at h with hwhole
    cases h
    exact .inl ⟨hwhole, rfl, rfl⟩
  · split_ifs at h with hbad
    cases h
    simp only [Bool.or_eq_true, not_or, List.isEmpty_iff, Bool.not_eq_true', Bool.not_eq_false,
      List.all_eq_true] at hbad
    exact .inr ⟨rfl, hbad⟩
  · cases h

theorem head?_of_places? {whole : Bool} (h : places? whole tail = some places) :
    ∀ c ∈ tail.head?, c.isDigit = false := by
  obtain ⟨-, rfl, -⟩ | ⟨rfl, -, -⟩ := places?_eq_some h
  · exact nofun
  · intro c hc
    cases hc
    rfl

theorem value?_signed (hfront : ∀ c ∈ front, c.isDigit = true) (hne : front ≠ [])
    (htail : places? true tail = some places) (neg : Bool) :
    value? (FixedText.signed neg (front ++ tail)) =
      some (withSign neg (Text.digitsValue (front ++ places) / 10 ^ places.length)) := by
  obtain ⟨htake, hdrop⟩ := takeWhile_digits hfront (head?_of_places? htail)
  have hsign : takeSign (FixedText.signed neg (front ++ tail)) = (neg, front ++ tail) := by
    obtain ⟨c, cs, rfl⟩ := List.exists_cons_of_ne_nil hne
    exact takeSign_signed (Text.isDigit_of_ascii (hfront c (by simp))) neg
  have hwhole : (!front.isEmpty) = true := by simpa using hne
  unfold value?
  rw [hsign]
  dsimp only
  rw [htake, hdrop, hwhole, htail]
  rfl

/-- A tenth is written with one decimal place, and without the point if it is whole. -/
theorem value?_oneDecimal {t : ℚ} {cs : List Char} (ht : ExactTenths.IsTenth t) (hcs : cs = Coordinate.oneDecimal t) :
    value? (if cs.getLast? = some '0' then cs.take (cs.length - 2) else cs) = some t := by
  have hsize := ExactTenths.units_of_isTenth ht
  have hself := ExactTenths.withSign_abs t
  obtain ⟨front, ds, hplaced, hdigits, hne, hlength, hvalue⟩ := FixedText.placed_succ 0 (ExactTenths.units t)
  obtain ⟨d, rfl⟩ := List.length_eq_one_iff.mp hlength
  obtain ⟨hfront, hd⟩ := List.forall_mem_append.mp hdigits
  have hone : cs = FixedText.signed (decide (t < 0)) front ++ ['.', d] := by
    rw [hcs, ← FixedText.signed_append, ← hplaced]
    rfl
  rw [hone]
  -- a zero behind the point is cut off with the point, and nothing is lost
  split
  · rename_i hlast
    have hzero : d = '0' := by simpa using hlast
    have hunits : (ExactTenths.units t : ℚ) = 10 * Text.digitsValue front := by
      rw [← hvalue, Text.digitsValue_concat, hzero]
      norm_cast
    have htake : (FixedText.signed (decide (t < 0)) front ++ ['.', d]).take
        ((FixedText.signed (decide (t < 0)) front ++ ['.', d]).length - 2) =
        FixedText.signed (decide (t < 0)) (front ++ []) := by simp
    rw [htake, value?_signed hfront hne rfl]
    have hwhole : |t| = Text.digitsValue front := by
      rw [← hsize, hunits]
      ring
    simp [← hwhole, hself]
  · have htail : places? true ['.', d] = some [d] := by
      have hdigit : d.isDigit = true := hd d (by simp)
      simp [places?, hdigit]
    rw [← FixedText.signed_append, value?_signed hfront hne htail, hvalue]
    simp [hsize, hself]

/-- The text of a coordinate is a plain decimal that stands for its nearest tenth. -/
theorem value?_tenths (q : ℚ) : value? (Coordinate.tenths q) = some (ExactTenths.nearestTenth q) := by
  have ht := ExactTenths.isTenth_nearestTenth q
  change value? (if (ExactTenths.nearestTenth q == 0) = true then ['0'] else _) = _
  split
  · rename_i hzero
    rw [eq_of_beq hzero]
    have htext : value? (FixedText.signed false (['0'] ++ [])) =
        some (withSign false (Text.digitsValue (['0'] ++ []) / 10 ^ 0)) :=
      value?_signed (List.all_eq_true.mp rfl) (List.cons_ne_nil _ _) rfl false
    have hvalue : Text.digitsValue (['0'] ++ []) = 0 := rfl
    rw [hvalue, Nat.cast_zero, zero_div] at htext
    exact htext
  · exact value?_oneDecimal ht rfl

theorem value?_eq_some (h : value? text = some q) : ∃ neg front tail places,
    takeSign text = (neg, front ++ tail) ∧ (∀ c ∈ front, c.isDigit = true) ∧
      places? (!front.isEmpty) tail = some places ∧
      q = withSign neg (Text.digitsValue (front ++ places) / 10 ^ places.length) := by
  cases hsign : takeSign text with
  | mk neg cs =>
    rw [value?, hsign] at h
    obtain ⟨places, hplaces, rfl⟩ := Option.map_eq_some_iff.mp h
    refine ⟨neg, _, _, places, ?_, fun c hc => List.mem_takeWhile_imp hc, hplaces, rfl⟩
    rw [List.takeWhile_append_dropWhile]

theorem takeSign_eq {neg : Bool} {cs : List Char} (h : takeSign text = (neg, cs)) :
    ∃ sign, text = sign ++ cs ∧ ∀ c ∈ sign, c = '-' ∨ c = '+' := by
  unfold takeSign at h
  split at h
  · cases h
    exact ⟨['-'], rfl, by simp⟩
  · cases h
    exact ⟨['+'], rfl, by simp⟩
  · cases h
    exact ⟨[], rfl, nofun⟩

theorem isNumeral_of_value? (h : value? text = some q) : ∀ c ∈ text, isNumeral c = true := by
  obtain ⟨neg, front, tail, places, hsign, hfront, hplaces, -⟩ := value?_eq_some h
  obtain ⟨sign, rfl, hmarks⟩ := takeSign_eq hsign
  have hdigit {cs : List Char} (hcs : ∀ c ∈ cs, c.isDigit = true) : ∀ c ∈ cs, isNumeral c = true :=
    fun c hc => by simp [isNumeral, hcs c hc]
  have htail : ∀ c ∈ tail, isNumeral c = true := by
    obtain ⟨-, rfl, -⟩ | ⟨rfl, -, hplaces⟩ := places?_eq_some hplaces
    · exact nofun
    · exact List.forall_mem_cons.mpr ⟨rfl, hdigit hplaces⟩
  refine List.forall_mem_append.mpr ⟨?_, List.forall_mem_append.mpr ⟨hdigit hfront, htail⟩⟩
  intro c hc
  rcases hmarks c hc with rfl | rfl <;> rfl

theorem isNumeral_cases {c : Char} (h : isNumeral c = true) :
    Text.isDigit c = true ∨ c = '.' ∨ c = '-' ∨ c = '+' := by
  simp only [isNumeral, Bool.or_eq_true, beq_iff_eq] at h
  obtain ((hdigit | hpoint) | hminus) | hplus := h
  · exact .inl (Text.isDigit_of_ascii hdigit)
  · exact .inr (.inl hpoint)
  · exact .inr (.inr (.inl hminus))
  · exact .inr (.inr (.inr hplus))

theorem not_isBlank_of_isNumeral {c : Char} (h : isNumeral c = true) : Text.isBlank c = false := by
  obtain hdigit | rfl | rfl | rfl := isNumeral_cases h
  · exact Text.not_isBlank_of_isDigit hdigit
  all_goals rfl

theorem read?_of_value? (h : value? text = some q) : Coordinate.read? text = some q := by
  have hplain : ∀ c ∈ text, Text.isBlank c = false := fun c hc =>
    not_isBlank_of_isNumeral (isNumeral_of_value? h c hc)
  obtain ⟨neg, front, tail, places, hsign, hfront, hplaces, rfl⟩ := value?_eq_some h
  have hparts := places?_eq_some hplaces
  change ExactTenths.read? text = _
  unfold ExactTenths.read?
  rw [trimNumber_eq hplain, hsign]
  dsimp only
  rw [decimalParts?_eq hfront (hparts.imp_left fun ⟨hwhole, h⟩ => ⟨by simpa using hwhole, h⟩), Option.map_some,
    zpow_neg, zpow_natCast, div_eq_mul_inv]

end PlainDecimal
end NodeLink
