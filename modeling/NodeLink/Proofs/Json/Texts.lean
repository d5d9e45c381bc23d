import NodeLink.Json.Writer
import NodeLink.Json.Reader

/-!
# Texts read back

A text that is written in quotes is read back whole, whatever characters it holds. Escapes are read one
unit at a time; the one danger is a unit that is a high half with a low half behind it.
-/

namespace NodeLink.Text

theorem hexValue?_hexDigit {n : Nat} (h : n < 16) : hexValue? (hexDigit n) = some n := by
  have hall : ∀ n < 16, hexValue? (hexDigit n) = some n := by decide
  exact hall n h

theorem isHalf_of_isHighHalf {n : Nat} (h : isHighHalf n = true) : isHalf n = true := by
  simp only [isHighHalf, isHalf, Bool.and_eq_true, decide_eq_true_eq] at *
  omega

theorem isHalf_of_isLowHalf {n : Nat} (h : isLowHalf n = true) : isHalf n = true := by
  simp only [isLowHalf, isHalf, Bool.and_eq_true, decide_eq_true_eq] at *
  omega

/-- No character is a half itself. -/
theorem isHalf_toNat (c : Char) : isHalf c.toNat = false := by
  have hv := c.valid
  simp only [isHalf, Bool.and_eq_false_iff, decide_eq_false_iff_not]
  rcases hv with hv | ⟨hl, -⟩
  · left
    have : c.toNat < 0xD800 := hv
    omega
  · right
    have : 0xDFFF < c.toNat := hl
    omega

theorem codeOf_le (c : Char) : codeOf c ≤ c.toNat := by
  unfold codeOf
  split <;> omega

/-- A half is carried by a character far behind the first 65536. -/
theorem toNat_of_isHalf_codeOf {c : Char} (h : isHalf (codeOf c) = true) :
    c.toNat = halfShift + codeOf c := by
  unfold codeOf at *
  split
  · rename_i hc
    have hhalf : isHalf (c.toNat - halfShift) = true := hc
    simp only [isHalf, Bool.and_eq_true, decide_eq_true_eq] at hhalf
    omega
  · rename_i hc
    rw [if_neg hc, isHalf_toNat] at h
    cases h

theorem unitChar_codeOf (c : Char) : unitChar (codeOf c) = c := by
  unfold unitChar
  by_cases hc : isHalf (codeOf c) = true
  · rw [if_pos hc, ← toNat_of_isHalf_codeOf hc, Char.ofNat_toNat]
  · rw [if_neg hc]
    unfold codeOf at *
    split at hc
    · rename_i hcarries
      exact absurd hcarries hc
    · rename_i hcarries
      rw [if_neg hcarries, Char.ofNat_toNat]

end NodeLink.Text

namespace NodeLink.Json

open NodeLink.Text

variable {start at_ rest tail cs : List Char} {c d : Char} {n fuel : Nat}

theorem hexDigits_four (n : Nat) : hexDigits 4 n =
    [hexDigit (n / 16 / 16 / 16 % 16), hexDigit (n / 16 / 16 % 16), hexDigit (n / 16 % 16),
      hexDigit (n % 16)] := rfl

theorem hexUnit?_hexDigits (h : n < 0x10000) (ne : tail ≠ []) :
    hexUnit? (hexDigits 4 n ++ tail) = some (n, tail) := by
  cases tail with
  | nil => exact absurd rfl ne
  | cons e tail =>
    have hlt (m : Nat) : m % 16 < 16 := Nat.mod_lt m (by decide)
    have hsum : 4096 * (n / 16 / 16 / 16 % 16) + 256 * (n / 16 / 16 % 16) + 16 * (n / 16 % 16) +
        n % 16 = n := by
      omega
    simp only [hexDigits_four, List.cons_append, List.nil_append, hexUnit?, hexValue?_hexDigit (hlt _),
      Option.bind_eq_bind, Option.bind_some, hsum]
    rfl

/-- No unit of a low half stands in front. -/
def NoLowHalf (cs : List Char) : Prop :=
  ∀ after, cs = '\\' :: 'u' :: after → ∃ n rest, hexUnit? after = some (n, rest) ∧ isLowHalf n = false

theorem noLowHalf_of_ne {c d : Char} (h : c ≠ '\\' ∨ d ≠ 'u') : NoLowHalf (c :: d :: cs) := by
  rintro after he
  cases he
  rcases h with h | h <;> exact absurd rfl h

theorem noLowHalf_unit (hn : n < 0x10000) (hl : isLowHalf n = false) (ne : tail ≠ []) :
    NoLowHalf (unitEscape n ++ tail) := by
  intro after he
  cases he
  exact ⟨n, tail, hexUnit?_hexDigits hn ne, hl⟩

/-- A unit is read as one character unless it begins a pair. -/
theorem readUnit_unit (hn : n < 0x10000) (ne : tail ≠ [])
    (h : isHighHalf n = true → NoLowHalf tail) :
    readUnit at_ (hexDigits 4 n ++ tail) = .ok (unitChar n, tail) := by
  unfold readUnit
  rw [hexUnit?_hexDigits hn ne]
  dsimp only
  split
  · rename_i after hhigh
    obtain ⟨low, rest, hunit, hlow⟩ := h hhigh after rfl
    split
    · rfl
    · rw [hunit]
      simp [hlow]
  · rfl

theorem readUnit_pair {high low : Nat} (hh : isHighHalf high = true) (hl : isLowHalf low = true)
    (ne : tail ≠ []) :
    readUnit at_ (hexDigits 4 high ++ (unitEscape low ++ tail)) = .ok (pairChar high low, tail) := by
  have hhigh : high < 0x10000 := by
    simp only [isHighHalf, Bool.and_eq_true, decide_eq_true_eq] at hh
    omega
  have hlow : low < 0x10000 := by
    simp only [isLowHalf, Bool.and_eq_true, decide_eq_true_eq] at hl
    omega
  have hlen : ¬ (hexDigits 4 low ++ tail).length < 5 := by
    have := List.length_pos_iff.mpr ne
    simp only [List.length_append, hexDigits_four, List.length_cons, List.length_nil]
    omega
  unfold readUnit
  rw [hexUnit?_hexDigits hhigh (by simp [unitEscape])]
  simp only [hh, unitEscape, List.cons_append, if_neg hlen, hexUnit?_hexDigits hlow ne, hl, if_true]

/-- The halves of a character beyond the first 65536. -/
theorem pairEscape_halves (h : 0x10000 ≤ c.toNat) :
    ∃ high low, isHighHalf high = true ∧ isLowHalf low = true ∧ pairChar high low = c ∧
      pairEscape c = unitEscape high ++ unitEscape low := by
  have hmax : c.toNat < 0x110000 := by
    rcases c.valid with hv | ⟨-, hv⟩
    · have : c.toNat < 0xD800 := hv
      omega
    · exact hv
  refine ⟨0xD800 + (c.toNat - 0x10000) / 0x400, 0xDC00 + (c.toNat - 0x10000) % 0x400, ?_, ?_, ?_, rfl⟩
  · simp only [isHighHalf, Bool.and_eq_true, decide_eq_true_eq]
    omega
  · simp only [isLowHalf, Bool.and_eq_true, decide_eq_true_eq]
    omega
  · have hsum : 0x10000 + (0xD800 + (c.toNat - 0x10000) / 0x400 - 0xD800) * 0x400 +
        (0xDC00 + (c.toNat - 0x10000) % 0x400 - 0xDC00) = c.toNat := by
      omega
    rw [pairChar, hsum, Char.ofNat_toNat]

/-- Reading goes on behind a character that has been read. -/
def andThen (c : Char) (found : Except ReadFault (List Char × List Char)) :
    Except ReadFault (List Char × List Char) := do
  let (more, rest) ← found
  return (c :: more, rest)

theorem readChars_simple {e : Char} (he : e ≠ 'u') (h : simpleEscape? e = some c) :
    readChars start (fuel + 1) ('\\' :: e :: tail) = andThen c (readChars start fuel tail) := by
  rw [readChars.eq_def]
  dsimp only
  rw [if_neg (by decide), if_neg (by decide), if_pos rfl]
  split
  · rename_i hcons
    cases hcons
  · rename_i hcons
    cases hcons
    exact absurd rfl he
  · rename_i hcons
    cases hcons
    rw [h]
    rfl

theorem readChars_plain (hq : c ≠ '"') (hs : c ≠ '\\') (h : 32 ≤ c.toNat) :
    readChars start (fuel + 1) (c :: tail) = andThen c (readChars start fuel tail) := by
  rw [readChars.eq_def]
  simp only [if_neg hq, if_neg (Nat.not_lt.mpr h), if_neg hs]
  rfl

theorem readChars_unit (hn : n < 0x10000) (ne : tail ≠ []) (h : isHighHalf n = true → NoLowHalf tail) :
    readChars start (fuel + 1) (unitEscape n ++ tail) = andThen (unitChar n) (readChars start fuel tail) := by
  rw [unitEscape, List.cons_append, List.cons_append, readChars.eq_def]
  simp only [readUnit_unit hn ne h]
  rfl

theorem readChars_pair (h : 0x10000 ≤ c.toNat) (ne : tail ≠ []) :
    readChars start (fuel + 1) (pairEscape c ++ tail) = andThen c (readChars start fuel tail) := by
  obtain ⟨high, low, hh, hl, hc, he⟩ := pairEscape_halves h
  rw [he, List.append_assoc, unitEscape, List.cons_append, List.cons_append, readChars.eq_def]
  simp only [readUnit_pair hh hl ne, hc]
  rfl

theorem le_toNat_of_isHalf (h : isHalf (codeOf c) = true) : 0x10000 ≤ c.toNat := by
  rw [toNat_of_isHalf_codeOf h]
  simp only [halfShift]
  omega

theorem noLowHalf_pairEscape (h : 0x10000 ≤ c.toNat) : NoLowHalf (pairEscape c ++ tail) := by
  obtain ⟨high, low, hh, hl, -, he⟩ := pairEscape_halves h
  simp only [isHighHalf, Bool.and_eq_true, decide_eq_true_eq] at hh
  rw [he, List.append_assoc]
  refine noLowHalf_unit (by omega) ?_ (by simp [unitEscape])
  simp only [isLowHalf, Bool.and_eq_false_iff, decide_eq_false_iff_not]
  omega

/-- The four ways in which a character is written. -/
theorem escapeChar_cases (c : Char) :
    (∃ e, e ≠ 'u' ∧ simpleEscape? e = some c ∧ escapeChar c = ['\\', e]) ∨
      (c ≠ '"' ∧ c ≠ '\\' ∧ 32 ≤ c.toNat ∧ escapeChar c = [c]) ∨
      (codeOf c < 0x10000 ∧ escapeChar c = unitEscape (codeOf c)) ∨
      (0x10000 ≤ c.toNat ∧ escapeChar c = pairEscape c) := by
  unfold escapeChar
  split
  · subst c
    exact Or.inl ⟨'"', by decide, rfl, rfl⟩
  split
  · subst c
    exact Or.inl ⟨'\\', by decide, rfl, rfl⟩
  split
  · subst c
    exact Or.inl ⟨'n', by decide, rfl, rfl⟩
  split
  · subst c
    exact Or.inl ⟨'r', by decide, rfl, rfl⟩
  split
  · subst c
    exact Or.inl ⟨'t', by decide, rfl, rfl⟩
  split
  · subst c
    exact Or.inl ⟨'b', by decide, rfl, rfl⟩
  split
  · subst c
    exact Or.inl ⟨'f', by decide, rfl, rfl⟩
  split
  · rename_i hq hs _ _ _ _ _ hv
    exact Or.inr (Or.inl ⟨hq, hs, hv.1, rfl⟩)
  split
  · rename_i hn
    exact Or.inr (Or.inr (Or.inl ⟨hn, rfl⟩))
  · rename_i hn
    exact Or.inr (Or.inr (Or.inr ⟨Nat.le_trans (Nat.le_of_not_lt hn) (codeOf_le c), rfl⟩))

theorem readChars_escapeChar (ne : tail ≠ []) (h : isHighHalf (codeOf c) = true → NoLowHalf tail) :
    readChars start (fuel + 1) (escapeChar c ++ tail) = andThen c (readChars start fuel tail) := by
  rcases escapeChar_cases c with ⟨e, he, hc, heq⟩ | ⟨hq, hs, hc, heq⟩ | ⟨hn, heq⟩ | ⟨hn, heq⟩
  · rw [heq]
    exact readChars_simple he hc
  · rw [heq]
    exact readChars_plain hq hs hc
  · rw [heq, readChars_unit hn ne h, unitChar_codeOf]
  · rw [heq]
    exact readChars_pair hn ne

theorem noLowHalf_escapeChar (h : isLowHalf (codeOf c) = false) (ne : tail ≠ []) :
    NoLowHalf (escapeChar c ++ tail) := by
  rcases escapeChar_cases c with ⟨e, he, -, heq⟩ | ⟨-, hs, -, heq⟩ | ⟨hn, heq⟩ | ⟨hn, heq⟩
  · rw [heq]
    exact noLowHalf_of_ne (Or.inr he)
  · rw [heq]
    cases tail with
    | nil => exact absurd rfl ne
    | cons e tail => exact noLowHalf_of_ne (Or.inl hs)
  · rw [heq]
    exact noLowHalf_unit hn h ne
  · rw [heq]
    exact noLowHalf_pairEscape hn

theorem noLowHalf_escapeChars (h : isLowHalf (codeOf c) = false) (ne : tail ≠ []) :
    NoLowHalf (escapeChars (c :: cs) ++ tail) := by
  cases cs with
  | nil => exact noLowHalf_escapeChar h ne
  | cons d cs =>
    unfold escapeChars
    split
    · rename_i hp
      simp only [Bool.and_eq_true] at hp
      rw [List.append_assoc, List.append_assoc]
      exact noLowHalf_pairEscape (le_toNat_of_isHalf (isHalf_of_isHighHalf hp.1))
    · rw [List.append_assoc]
      exact noLowHalf_escapeChar h (by simp [ne])

/-- Every character of a text is read back. Characters that carry the halves of one pair side by side are
the only ones that are not written one by one. -/
theorem readChars_escapeChars (h : cs.length < fuel) :
    readChars start fuel (escapeChars cs ++ '"' :: rest) = .ok (cs, rest) := by
  induction cs using escapeChars.induct generalizing fuel with
  | case1 =>
    obtain ⟨fuel, rfl⟩ := Nat.exists_eq_add_of_lt h
    rfl
  | case2 c =>
    obtain ⟨fuel, rfl⟩ : ∃ f, fuel = f + 2 := ⟨fuel - 2, by simp at h; omega⟩
    have hquote : NoLowHalf ('"' :: rest) := nofun
    rw [escapeChars, readChars_escapeChar (by simp) fun _ => hquote]
    rfl
  | case3 c d cs hp ih =>
    simp only [List.length_cons] at h
    obtain ⟨fuel, rfl⟩ : ∃ f, fuel = f + 2 := ⟨fuel - 2, by omega⟩
    simp only [Bool.and_eq_true] at hp
    have hc := le_toNat_of_isHalf (isHalf_of_isHighHalf hp.1)
    have hd := le_toNat_of_isHalf (isHalf_of_isLowHalf hp.2)
    rw [escapeChars, if_pos (by simp [hp]), List.append_assoc, List.append_assoc,
      readChars_pair hc (by simp), readChars_pair hd (by simp), ih (by omega)]
    rfl
  | case4 c d cs hp ih =>
    simp only [List.length_cons] at h
    obtain ⟨fuel, rfl⟩ : ∃ f, fuel = f + 1 := ⟨fuel - 1, by omega⟩
    rw [escapeChars, if_neg hp, List.append_assoc, readChars_escapeChar (by simp),
      ih (by simp only [List.length_cons]; omega)]
    · rfl
    -- A low half right behind a high one would have been the case before.
    · intro hhigh
      refine noLowHalf_escapeChars ?_ (by simp)
      simpa [hhigh] using hp

theorem length_escapeChar (c : Char) : 0 < (escapeChar c).length := by
  rcases escapeChar_cases c with ⟨e, -, -, heq⟩ | ⟨-, -, -, heq⟩ | ⟨-, heq⟩ | ⟨-, heq⟩ <;>
    simp [heq, unitEscape, pairEscape]

theorem length_escapeChars (cs : List Char) : cs.length ≤ (escapeChars cs).length := by
  induction cs using escapeChars.induct with
  | case1 => exact Nat.zero_le _
  | case2 c => exact length_escapeChar c
  | case3 c d cs hp ih =>
    rw [escapeChars, if_pos hp]
    simp only [List.length_append, List.length_cons, pairEscape, unitEscape]
    omega
  | case4 c d cs hp ih =>
    have := length_escapeChar c
    rw [escapeChars, if_neg hp]
    simp only [List.length_append, List.length_cons] at *
    omega

/-- A text that was written is read back, with whatever stands behind it. -/
theorem readText_writeText (s : String) (rest : List Char) :
    readText (writeText s rest) = .ok (s, rest) := by
  have hlen := length_escapeChars s.toList
  have hchars : readChars (writeText s rest) ((writeText s rest).length + 1) ((writeText s rest).drop 1) =
      .ok (s.toList, rest) := by
    refine readChars_escapeChars ?_
    simp only [writeText, List.length_append, List.length_cons]
    omega
  rw [readText, hchars]
  simp [bind, Except.bind, pure, Except.pure]

end NodeLink.Json
