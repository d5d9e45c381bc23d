import NodeLink.Text.Digit
import Mathlib.Algebra.Group.Nat.Defs
import Mathlib.Data.List.Basic
import Mathlib.Data.List.Induction

/-!
# Numbers and their digits

What digits count for, how large a number of so many digits can be, and that the digits of a number stand
for it.
-/

namespace NodeLink.Text

theorem digitValue_le_nine {c : Char} {v : Nat} (h : digitValue? c = some v) : v ≤ 9 := by
  unfold digitValue? at h
  dsimp only at h
  split at h
  · simp only [Option.ite_none_right_eq_some, Bool.and_eq_true, decide_eq_true_eq,
      Option.some.injEq] at h
    omega
  · obtain ⟨z, hz, rfl⟩ := Option.map_eq_some_iff.mp h
    have := List.find?_some hz
    simp only [Bool.and_eq_true, decide_eq_true_eq] at this
    omega

theorem digitsValue_concat (cs : List Char) (c : Char) :
    digitsValue (cs ++ [c]) = 10 * digitsValue cs + (digitValue? c).getD 0 := by
  simp [digitsValue]

theorem digitsValue_lt (cs : List Char) : digitsValue cs < 10 ^ cs.length := by
  induction cs using List.reverseRecOn with
  | nil => decide
  | append_singleton cs c ih =>
    have hc : (digitValue? c).getD 0 ≤ 9 := by
      cases h : digitValue? c with
      | none => simp
      | some v => exact digitValue_le_nine h
    rw [digitsValue_concat, List.length_append, List.length_singleton, Nat.pow_succ]
    omega

theorem wholeOfDigits?_lt {cs : List Char} {n : Nat} (h : wholeOfDigits? cs = some n) :
    n < 10 ^ digitLimit := by
  unfold wholeOfDigits? at h
  split at h
  · rename_i hl
    cases h
    exact Nat.lt_of_lt_of_le (digitsValue_lt cs) (Nat.pow_le_pow_right (by decide) hl)
  · cases h

/-- Numbers of up to two digits are well below the limit. -/
theorem lt_limit {n : Nat} (h : n < 10 ^ 2) : n < 10 ^ digitLimit :=
  Nat.lt_of_lt_of_le h (Nat.pow_le_pow_right (by decide) (by decide))

theorem isDigit_digitsOf (n : Nat) : ∀ c ∈ digitsOf n, c.isDigit = true := by
  intro c hc
  exact Nat.isDigit_of_mem_toDigits (by decide) (by decide) hc

theorem digitValue?_of_isDigit {c : Char} (h : c.isDigit = true) :
    (digitValue? c).getD 0 = c.toNat - 48 := by
  simp only [Char.isDigit, Bool.and_eq_true, decide_eq_true_eq] at h
  have hl : 48 ≤ c.toNat := h.1
  have hu : c.toNat ≤ 57 := h.2
  have hascii : c.toNat < 128 := by omega
  simp [digitValue?, hascii, hl, hu]

theorem isDigit_of_ascii {c : Char} (h : c.isDigit = true) : isDigit c = true := by
  simp only [Char.isDigit, Bool.and_eq_true, decide_eq_true_eq] at h
  have hl : 48 ≤ c.toNat := h.1
  have hu : c.toNat ≤ 57 := h.2
  have hascii : c.toNat < 128 := by omega
  simp [isDigit, digitValue?, hascii, hl, hu]

theorem digitsValue_digitsOf (n : Nat) : digitsValue (digitsOf n) = n := by
  have hfold : digitsValue (digitsOf n) = Nat.ofDigitChars 10 (Nat.toDigits 10 n) 0 := by
    rw [Nat.ofDigitChars_eq_foldl]
    refine List.foldl_ext _ _ 0 fun v c hc => ?_
    rw [digitValue?_of_isDigit (isDigit_digitsOf n c hc)]
    rfl
  rw [hfold, Nat.ofDigitChars_ten_toDigits]

theorem toString_injective : Function.Injective (toString : Nat → String) := by
  intro m n h
  have hd : Nat.toDigits 10 m = Nat.toDigits 10 n := by
    simpa [Nat.toString_eq_ofList_toDigits] using congrArg String.toList h
  calc
    m = Nat.ofDigitChars 10 (Nat.toDigits 10 m) 0 := Nat.ofDigitChars_ten_toDigits.symm
    _ = Nat.ofDigitChars 10 (Nat.toDigits 10 n) 0 := by rw [hd]
    _ = n := Nat.ofDigitChars_ten_toDigits

theorem wholeOfDigits?_digitsOf {n : Nat} (h : n < 10 ^ digitLimit) :
    wholeOfDigits? (digitsOf n) = some n := by
  have hlen : (digitsOf n).length ≤ digitLimit :=
    (Nat.length_toDigits_le_iff (by decide) (by decide)).mpr h
  rw [wholeOfDigits?, if_pos hlen, digitsValue_digitsOf]

/-- Only zero itself is written with a zero in front. -/
theorem digitsOf_head {n : Nat} (h : 0 < n) : ∃ c cs, digitsOf n = c :: cs ∧ c ≠ '0' := by
  induction n using Nat.strongRecOn with
  | ind n ih =>
    by_cases hlt : n < 10
    · refine ⟨n.digitChar, [], Nat.toDigits_of_lt_base hlt, ?_⟩
      have hall : ∀ m < 10, 0 < m → m.digitChar ≠ '0' := by decide
      exact hall n hlt h
    · obtain ⟨c, cs, hd, hc⟩ := ih (n / 10) (by omega) (by omega)
      refine ⟨c, cs ++ [(n % 10).digitChar], ?_, hc⟩
      have hstep := Nat.toDigits_eq_if (b := 10) (n := n) (by decide)
      rw [if_neg hlt] at hstep
      unfold digitsOf at *
      rw [hstep, hd]
      rfl

end NodeLink.Text
