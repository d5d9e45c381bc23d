import NodeLink.CommandLine.Arguments
import NodeLink.Proofs.Drawing.Totality

/-!
# Settings that a drawing can go by

Whatever is accepted as an argument, a measure that is set is the default or a double. A drawing can go by such
measures as long as there is a padding.
-/

namespace NodeLink.CommandLine

variable {a a' : Arguments} {flag : Flag} {value : List Char}

/-- If a value is set, one can compute with it. -/
def Chosen.Fits (c : Chosen Number) : Prop := ∀ n, c = .value n → (Value.ofJson (.number n)).FitsTwice

theorem Chosen.of_read {α : Type} {readValue : List Char → Except Stop α} {text : List Char} {c : Chosen α}
    (h : Chosen.read readValue text = .ok c) {x : α} (hx : c = .value x) : readValue text = .ok x := by
  unfold Chosen.read at h
  split at h
  · cases h
    cases hx
  · obtain ⟨y, hy, rfl⟩ := map_eq_ok h
    cases hx
    exact hy

namespace Arguments

theorem fits_realOf {c : Chosen Number} (h : Chosen.read (realOf flag) value = .ok c) : c.Fits := by
  intro n hn
  have hread := Chosen.of_read h hn
  unfold realOf at hread
  split at hread
  · rename_i x _
    cases hread
    exact Or.inl ⟨x, rfl⟩
  · cases hread

/-- The measures that are set can be computed with. -/
structure Measured (a : Arguments) : Prop where
  width : a.width.Fits
  height : a.height.Fits
  padding : a.padding.Fits

theorem fits_default {n : Nat} (hn : Value.wholeFits (2 * n) = true) : (Chosen.value (.whole n)).Fits := by
  rintro _ ⟨⟩
  exact Or.inr ⟨n, rfl, hn⟩

theorem measured_default (input : List Char) : Measured { input } where
  width := fits_default (Value.wholeFits_of_lt (by decide))
  height := fits_default (Value.wholeFits_of_lt (by decide))
  padding := fits_default (Value.wholeFits_of_lt (by decide))

theorem Measured.assign (h : a.Measured) (hassign : a.assign flag value = .ok a') : a'.Measured := by
  obtain ⟨hwidth, hheight, hpadding⟩ := h
  unfold Arguments.assign at hassign
  cases flag with
  | width =>
    obtain ⟨c, hc, hassign⟩ := bind_eq_ok hassign
    cases hassign
    exact ⟨fits_realOf hc, hheight, hpadding⟩
  | height =>
    obtain ⟨c, hc, hassign⟩ := bind_eq_ok hassign
    cases hassign
    exact ⟨hwidth, fits_realOf hc, hpadding⟩
  | padding =>
    obtain ⟨c, hc, hassign⟩ := bind_eq_ok hassign
    cases hassign
    exact ⟨hwidth, hheight, fits_realOf hc⟩
  | output | format | layout | background | seed | delay =>
    obtain ⟨c, -, hassign⟩ := bind_eq_ok hassign
    cases hassign
    exact ⟨hwidth, hheight, hpadding⟩
  | help | curved | plainIcons | plainPaths | watch | verbose =>
    cases hassign
    exact ⟨hwidth, hheight, hpadding⟩

theorem Measured.switch (h : a.Measured) (hswitch : a.switch flag = .ok a') : a'.Measured := by
  cases flag <;> cases hswitch <;> exact ⟨h.width, h.height, h.padding⟩

theorem Measured.take {setting : Setting} (h : a.Measured) (htake : a.take setting = .ok a') : a'.Measured := by
  unfold Arguments.take at htake
  split at htake
  · exact h.assign htake
  · exact h.switch htake

end Arguments

/-- Taking tokens in keeps the measures such that one can compute with them. -/
theorem measured_readTokens {fuel : Nat} {r r' : Reading} {tokens : List Token} (h : r.settings.Measured)
    (hread : readTokens fuel r tokens = .ok r') : r'.settings.Measured := by
  fun_induction readTokens fuel r tokens with
  | case1 | case2 =>
    cases hread
    exact h
  | case9 fuel r rest flag tail ih =>
    obtain ⟨taken, -, hread⟩ := bind_eq_ok hread
    obtain ⟨settings, hsettings, hread⟩ := bind_eq_ok hread
    have hkept : settings.Measured :=
      foldlM_keeps (P := Arguments.Measured) (fun _ _ _ _ hm htake => hm.take htake) h hsettings
    exact ih taken settings hkept hread
  | _ => rename_i ih; exact ih h hread

theorem measured_read {texts : List (List Char)} (h : Arguments.read texts = .ok a) : a.Measured := by
  obtain ⟨tokens, -, h⟩ := bind_eq_ok h
  obtain ⟨r, hr, h⟩ := bind_eq_ok h
  obtain ⟨hwidth, hheight, hpadding⟩ := measured_readTokens (Arguments.measured_default []) hr
  split at h
  · cases h
  · split at h
    · cases h
      exact ⟨hwidth, hheight, hpadding⟩
    · cases h

namespace Arguments

theorem fits_toJson {c : Chosen Number} (h : c.Fits) (hset : c ≠ .nothing) :
    (Value.ofJson (c.toJson .number)).FitsTwice := by
  cases c with
  | value n => exact h n rfl
  | nothing => exact absurd rfl hset

theorem fits_sizeOf {o : Options} {name : String} {c : Chosen Number} (hget : o.get name = c.toJson .number)
    (h : c.Fits) : ∀ size ∈ o.sizeOf? name, size.Fits := by
  intro size hsize
  unfold Options.sizeOf? at hsize
  split at hsize
  · rename_i hset
    cases hsize
    have hvalue : c ≠ .nothing := by
      rintro rfl
      rw [Options.isSet, hget] at hset
      cases hset
    rw [Options.valueOf, hget]
    exact (fits_toJson h hvalue).fits
  · cases hsize

theorem usual_options (h : a.Measured) (hpadding : a.padding ≠ .nothing) : a.options.style.Usual where
  width := fits_sizeOf (c := a.width) rfl h.width
  height := fits_sizeOf (c := a.height) rfl h.height
  padding := (fits_toJson h.padding hpadding).fits
  bothPaddings := (fits_toJson h.padding hpadding).two_mul
  minFont := Or.inr ⟨4, rfl, by decide⟩
  maxFont := Or.inr ⟨14, rfl, by decide⟩
  fillRatio := ⟨0.9, rfl⟩
  hideBelow := ⟨3.0, rfl⟩
  referenceSize := Value.fits_whole (by decide)
  background := by
    change (a.background.toJson .text).isGiven = true → (a.background.toJson .text).IsText
    cases a.background with
    | value s => exact fun _ => ⟨s, rfl⟩
    | nothing => exact nofun
  edgeColor := nofun

end Arguments
end NodeLink.CommandLine
