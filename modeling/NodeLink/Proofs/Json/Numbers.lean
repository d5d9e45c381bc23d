import NodeLink.Proofs.Text.Cutting
import NodeLink.Proofs.Text.Digits
import NodeLink.Json.Writer
import NodeLink.Json.Reader
import Mathlib.Data.List.TakeWhile

/-!
# Numbers read back

A whole number is read back from its digits, and an infinity from its name. What stands behind a number
is left alone as long as it does not go on with the number.
-/

namespace NodeLink.Binary64

theorem toBits_injective {x y : Float} (h : x.toBits = y.toBits) : x = y := by
  obtain ⟨⟨bx, hx⟩⟩ := x
  obtain ⟨⟨by', hy⟩⟩ := y
  cases h
  rfl

theorem infinity_toBits : infinity.toBits.toNat = 2047 * 2 ^ 52 := by decide +kernel
theorem neg_infinity_toBits : (-infinity).toBits.toNat = 2 ^ 63 + 2047 * 2 ^ 52 := by decide +kernel

theorem eq_infinity {x : Float} {neg : Bool} (h : view x = .infinite neg) :
    x = if neg then -infinity else infinity := by
  have hbits : x.toBits.toNat = if neg then 2 ^ 63 + 2047 * 2 ^ 52 else 2047 * 2 ^ 52 := by
    have hlt : x.toBits.toNat < 2 ^ 64 := x.toBits.toNat_lt
    unfold view viewBits hiddenBit at h
    simp only [Nat.pow_eq] at h
    split at h
    · split at h
      · cases h
        split
        · rename_i hneg
          simp only [decide_eq_true_eq] at hneg
          omega
        · rename_i hneg
          simp only [decide_eq_true_eq] at hneg
          omega
      · cases h
    · split at h <;> cases h
  apply toBits_injective
  apply UInt64.toNat_inj.mp
  cases neg with
  | false => exact hbits.trans infinity_toBits.symm
  | true => exact hbits.trans neg_infinity_toBits.symm

end NodeLink.Binary64

namespace NodeLink.Json

open NodeLink.Text

variable {cs rest tail whole digits : List Char} {n : Number}

/-- What stands behind a number and is no part of it. -/
def Ends (rest : List Char) : Prop :=
  ∀ c ∈ rest.head?, isAsciiDigit c = false ∧ c ≠ '.' ∧ c ≠ 'e' ∧ c ≠ 'E'

theorem takeWhile_append_ends (cs : List Char) (h : Ends rest) :
    (cs ++ rest).takeWhile isAsciiDigit = cs.takeWhile isAsciiDigit ∧
      (cs ++ rest).dropWhile isAsciiDigit = cs.dropWhile isAsciiDigit ++ rest := by
  induction cs with
  | nil =>
    cases rest with
    | nil => exact ⟨rfl, rfl⟩
    | cons c rest =>
      obtain ⟨hc, -⟩ := h c rfl
      simp [hc]
  | cons c cs ih =>
    obtain ⟨htake, hdrop⟩ := ih
    by_cases hc : isAsciiDigit c = true
    · simp [hc, htake, hdrop]
    · simp [hc]

theorem wholePart?_append (h : wholePart? cs = some (whole, tail)) (hr : Ends rest) :
    wholePart? (cs ++ rest) = some (whole, tail ++ rest) := by
  cases cs with
  | nil => cases h
  | cons c cs =>
    obtain ⟨htake, hdrop⟩ := takeWhile_append_ends cs hr
    simp only [wholePart?] at h
    simp only [List.cons_append, wholePart?, htake, hdrop]
    split at h
    · cases h
      rename_i hc
      rw [if_pos hc]
    · rename_i hc
      split at h
      · cases h
        rename_i hd
        rw [if_neg hc, if_pos hd]
      · cases h

theorem placesPart_none (h : ∀ c ∈ cs.head?, c ≠ '.') : placesPart cs = (none, cs) := by
  unfold placesPart
  split
  · exact absurd rfl (h '.' rfl)
  · rfl

theorem placesPart_append (hr : Ends rest) :
    placesPart (cs ++ rest) = ((placesPart cs).1, (placesPart cs).2 ++ rest) := by
  by_cases hdot : ∀ c ∈ cs.head?, c ≠ '.'
  · rw [placesPart_none hdot]
    cases cs with
    | nil => exact placesPart_none fun c hc => (hr c hc).2.1
    | cons c cs => exact placesPart_none hdot
  · match cs with
    | [] => exact absurd nofun hdot
    | [c] =>
      obtain rfl : c = '.' := by simpa using hdot
      cases rest with
      | nil => rfl
      | cons d rest =>
        obtain ⟨hd, -⟩ := hr d rfl
        simp [placesPart, hd]
    | c :: d :: cs =>
      obtain rfl : c = '.' := by simpa using hdot
      obtain ⟨htake, hdrop⟩ := takeWhile_append_ends cs hr
      simp only [placesPart, List.cons_append, htake, hdrop]
      split <;> rfl

theorem powerPart_none (h : ∀ c ∈ cs.head?, c ≠ 'e' ∧ c ≠ 'E') : powerPart cs = (none, cs) := by
  cases cs with
  | nil => rfl
  | cons c cs =>
    obtain ⟨he, hE⟩ := h c rfl
    simp [powerPart, he, hE]

theorem powerSign_append (h : cs ≠ []) :
    powerSign (cs ++ rest) = ((powerSign cs).1, (powerSign cs).2 ++ rest) := by
  cases cs with
  | nil => exact absurd rfl h
  | cons c cs =>
    by_cases hminus : c = '-'
    · subst hminus
      rfl
    · by_cases hplus : c = '+'
      · subst hplus
        rfl
      · simp [powerSign, hminus, hplus]

/-- A power that goes to the end of a text. -/
theorem powerPart_append {power : Option (List Char)} (h : powerPart cs = (power, [])) (hr : Ends rest) :
    powerPart (cs ++ rest) = (power, rest) := by
  cases cs with
  | nil =>
    cases h
    exact powerPart_none fun c hc => (hr c hc).2.2
  | cons e after =>
    simp only [powerPart] at h
    split at h
    · rename_i hp
      obtain ⟨he, hd⟩ := hp
      have hafter : after ≠ [] := by
        rintro rfl
        simp [powerSign] at hd
      obtain ⟨htake, hdrop⟩ := takeWhile_append_ends (powerSign after).2 hr
      have hhead : ((powerSign after).2 ++ rest).head?.any isAsciiDigit = true := by
        cases hs : (powerSign after).2 with
        | nil => simp [hs] at hd
        | cons d ds => simpa [hs] using hd
      obtain ⟨rfl, hnil⟩ := Prod.mk.inj h
      simp only [List.cons_append, powerPart, powerSign_append hafter, htake, hdrop, hnil]
      rw [if_pos ⟨he, hhead⟩]
      rfl
    · cases h

theorem readUnsigned_append {start start' : List Char} {neg : Bool}
    (h : readUnsigned start neg cs = .ok (n, [])) (hr : Ends rest) :
    readUnsigned start' neg (cs ++ rest) = .ok (n, rest) := by
  unfold readUnsigned at h
  split at h
  · cases h
  · rename_i whole tail hw
    unfold readUnsigned
    rw [wholePart?_append hw hr]
    dsimp only at h ⊢
    rw [placesPart_append hr]
    split at h
    · rename_i last hp
      split at h
      · rename_i hplaces
        split at h
        · cases h
        · rename_i m hm
          cases h
          rw [powerPart_append hp hr]
          simp only [hplaces]
      · rename_i ds hplaces
        cases h
        rw [powerPart_append hp hr]
        simp only [hplaces]
    · rename_i power last hp
      cases h
      rw [powerPart_append hp hr]

theorem readNumber_minus : readNumber ('-' :: cs) = readUnsigned ('-' :: cs) true cs := rfl

theorem readNumber_unsigned (h : cs.head? ≠ some '-') : readNumber cs = readUnsigned cs false cs := by
  unfold readNumber
  split
  · exact absurd rfl h
  · rfl

/-- What ends a number does not change how it is read. -/
theorem readNumber_append (h : readNumber cs = .ok (n, [])) (hr : Ends rest) :
    readNumber (cs ++ rest) = .ok (n, rest) := by
  cases cs with
  | nil => cases h
  | cons c cs =>
    by_cases hc : c = '-'
    · subst hc
      rw [List.cons_append, readNumber_minus]
      exact readUnsigned_append h hr
    · rw [readNumber_unsigned (by simpa using hc)] at h
      rw [readNumber_unsigned (by simpa using hc)]
      exact readUnsigned_append h hr

theorem wholePart?_digitsOf (m : Nat) : wholePart? (digitsOf m) = some (digitsOf m, []) := by
  have hdigits (c : Char) (hc : c ∈ digitsOf m) : isAsciiDigit c = true := isDigit_digitsOf m c hc
  rcases Nat.eq_zero_or_pos m with rfl | hm
  · rfl
  · obtain ⟨c, cs, heq, hc⟩ := digitsOf_head hm
    rw [heq] at hdigits ⊢
    have hcs : ∀ d ∈ cs, isAsciiDigit d = true := fun d hd => hdigits d (List.mem_cons_of_mem c hd)
    simp [wholePart?, hc, hdigits c, List.takeWhile_eq_self_iff.mpr hcs, List.dropWhile_eq_nil_iff.mpr hcs]

theorem readUnsigned_digitsOf {start : List Char} {neg : Bool} {m : Nat} (h : m < 10 ^ digitLimit) :
    readUnsigned start neg (digitsOf m) = .ok (.whole (if neg then -(m : Int) else m), []) := by
  simp only [readUnsigned, wholePart?_digitsOf, placesPart, powerPart, wholeOfDigits?_digitsOf h]

theorem readNumber_whole {m : Int} (h : m.natAbs < 10 ^ digitLimit) :
    readNumber (writeNumber (.whole m)) = .ok (.whole m, []) := by
  by_cases hm : m < 0
  · have hsign : -(m.natAbs : Int) = m := by omega
    simp only [writeNumber, Number.text, FixedText.signed, hm, decide_true, if_true, readNumber_minus,
      readUnsigned_digitsOf h, hsign]
  · have hsign : (m.natAbs : Int) = m := by omega
    have hhead : (digitsOf m.natAbs).head? ≠ some '-' := by
      intro hc
      have := isDigit_digitsOf m.natAbs '-' (List.mem_of_mem_head? hc)
      cases this
    simp only [writeNumber, Number.text, FixedText.signed, hm, decide_false, if_false, Bool.false_eq_true,
      readNumber_unsigned hhead, readUnsigned_digitsOf h, hsign]

/-- A number that is found again in its text. Of a finite double this asks that its shortest text is read as
the same double; what is no number has a text too, but equals nothing. -/
def Readable : Number → Prop
  | .whole m => m.natAbs < 10 ^ digitLimit
  | .real x =>
    Binary64.view x ≠ .undefined ∧
      ∀ neg m e, Binary64.view x = .finite neg m e →
        readNumber (writeNumber (.real x)) = .ok (.real x, [])

theorem readUnsigned_start {start : List Char} {neg : Bool} {found : Number × List Char}
    (h : readUnsigned start neg cs = .ok found) : ∃ c t, cs = c :: t ∧ isAsciiDigit c = true := by
  unfold readUnsigned at h
  cases cs with
  | nil => cases h
  | cons c t =>
    refine ⟨c, t, rfl, ?_⟩
    by_contra hc
    have hzero : c ≠ '0' := by
      rintro rfl
      exact hc rfl
    simp [wholePart?, hc, hzero, failAt] at h

theorem readNumber_start {found : Number × List Char} (h : readNumber cs = .ok found) :
    ∃ c t, isAsciiDigit c = true ∧ (cs = c :: t ∨ cs = '-' :: c :: t) := by
  unfold readNumber at h
  split at h
  · obtain ⟨c, t, rfl, hc⟩ := readUnsigned_start h
    exact ⟨c, t, hc, Or.inr rfl⟩
  · obtain ⟨c, t, rfl, hc⟩ := readUnsigned_start h
    exact ⟨c, t, hc, Or.inl rfl⟩

theorem readPlain_number {found : Number × List Char} (h : readNumber cs = .ok found) :
    readPlain cs = .ok (.number found.1, found.2) := by
  have hne {c d : Char} (hc : isAsciiDigit c = true) (hd : isAsciiDigit d = false) : d ≠ c :=
    (ne_of_test hc hd).symm
  have hnone : ∀ entry ∈ constants, afterLead? entry.1 cs = none := by
    obtain ⟨c, t, hc, rfl | rfl⟩ := readNumber_start h
    · simp [constants, afterLead?, hne hc (d := 'n') (by decide), hne hc (d := 't') (by decide),
        hne hc (d := 'f') (by decide), hne hc (d := 'N') (by decide), hne hc (d := 'I') (by decide),
        hne hc (d := '-') (by decide)]
    · simp [constants, afterLead?, hne hc (d := 'I') (by decide)]
  rw [readPlain, List.findSome?_eq_none_iff.mpr fun entry hm => by simp [hnone entry hm]]
  simp only [h, bind, Except.bind]
  rfl

theorem readPlain_writeNumber (h : Readable n) (hr : Ends rest) :
    readPlain (writeNumber n ++ rest) = .ok (.number n, rest) := by
  cases n with
  | whole m => exact readPlain_number (readNumber_append (readNumber_whole h) hr)
  | real x =>
    obtain ⟨hnumber, hfinite⟩ := h
    cases hv : Binary64.view x with
    | undefined => exact absurd hv hnumber
    | infinite neg =>
      have hx := Binary64.eq_infinity hv
      simp only [writeNumber, hv]
      cases neg with
      | false =>
        subst hx
        rfl
      | true =>
        subst hx
        rfl
    | finite neg m e => exact readPlain_number (readNumber_append (hfinite neg m e hv) hr)

theorem writeNumber_head (h : Readable n) :
    ∃ c t, writeNumber n = c :: t ∧ (isAsciiDigit c = true ∨ c = '-' ∨ c = 'I') := by
  have hstart (hn : readNumber (writeNumber n) = .ok (n, [])) :
      ∃ c t, writeNumber n = c :: t ∧ (isAsciiDigit c = true ∨ c = '-' ∨ c = 'I') := by
    obtain ⟨c, t, hc, heq | heq⟩ := readNumber_start hn
    · exact ⟨c, t, heq, Or.inl hc⟩
    · exact ⟨'-', c :: t, heq, Or.inr (Or.inl rfl)⟩
  cases n with
  | whole m => exact hstart (readNumber_whole h)
  | real x =>
    obtain ⟨hnumber, hfinite⟩ := h
    cases hv : Binary64.view x with
    | undefined => exact absurd hv hnumber
    | infinite neg =>
      simp only [writeNumber, hv]
      cases neg with
      | false => exact ⟨'I', _, rfl, Or.inr (Or.inr rfl)⟩
      | true => exact ⟨'-', _, rfl, Or.inr (Or.inl rfl)⟩
    | finite neg m e => exact hstart (hfinite neg m e hv)

end NodeLink.Json
