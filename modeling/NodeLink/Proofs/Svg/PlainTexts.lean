import NodeLink.Proofs.Geometry.PathReading
import NodeLink.Proofs.Svg.Escaping
import NodeLink.Proofs.Text.Digits
import NodeLink.Svg.Render

/-!
# Texts that need no entity

Numbers, path data and the ids of paths are written as they are: no number, however large or undefined,
brings a character with it that has a meaning in markup.
-/

namespace NodeLink

theorem isPlain_of_isDigit {c : Char} (h : c.isDigit = true) : isPlain c = true := by
  have hne : ∀ d : Char, d.isDigit = false → c ≠ d := by
    rintro d hd rfl
    simp [h] at hd
  obtain ⟨hlow, hhigh⟩ : '0' ≤ c ∧ c ≤ '9' := by simpa [Char.isDigit, Char.le_def] using h
  have hspace : ' ' ≤ c := le_trans (by decide) hlow
  have htilde : c ≤ '~' := le_trans hhigh (by decide)
  simp [isPlain, hspace, htilde, hne '&' (by decide), hne '<' (by decide), hne '"' (by decide), hne '\\' (by decide)]

theorem plain_digitsOf (n : Nat) : Plain (Text.digitsOf n) :=
  fun c hc => isPlain_of_isDigit (Text.isDigit_digitsOf n c hc)

namespace FixedText

theorem plain_padLeft {cs : List Char} (h : Plain cs) (width : Nat) : Plain (padLeft width cs) := by
  refine plain_append.mpr ⟨fun c hc => ?_, h⟩
  rw [List.eq_of_mem_replicate hc]
  decide

theorem plain_placed (places units : Nat) : Plain (placed places units) := by
  have hdigits : Plain (padLeft (places + 1) (Text.digitsOf units)) := plain_padLeft (plain_digitsOf units) _
  have hwhole (n : Nat) := hdigits.sublist (List.take_sublist n _)
  have hrest (n : Nat) := hdigits.sublist (List.drop_sublist n _)
  unfold placed
  split_ifs
  · exact hwhole _
  · exact plain_append.mpr ⟨hwhole _, plain_cons.mpr ⟨by decide, hrest _⟩⟩

theorem plain_signed {cs : List Char} (h : Plain cs) (neg : Bool) : Plain (signed neg cs) := by
  unfold signed
  split_ifs
  · exact plain_cons.mpr ⟨by decide, h⟩
  · exact h

theorem plain_specialText (v : FloatView) : Plain (specialText v) := by
  cases v with
  | undefined => decide
  | infinite neg => exact plain_signed (by decide) neg
  | finite neg m e => exact plain_nil

theorem plain_fixedView (places : Nat) (v : FloatView) : Plain (fixedView places v) := by
  cases v with
  | finite neg m e => exact plain_signed (plain_placed places _) neg
  | undefined => exact plain_specialText .undefined
  | infinite neg => exact plain_specialText (.infinite neg)

end FixedText

namespace Number

open FixedText

theorem plain_withoutEndZeros {cs : List Char} (h : Plain cs) : Plain (CompactText.withoutEndZeros cs) := by
  refine fun c hc => h c ?_
  have hmem := (List.dropWhile_sublist _).subset (List.mem_reverse.mp hc)
  exact List.mem_reverse.mp ((List.dropWhile_sublist _).subset hmem)

theorem plain_viewText (v : FloatView) : Plain (CompactText.viewText v) := by
  have hzero : ∀ cs : List Char, Plain cs → Plain (if cs = ['-', '0'] ∨ cs = [] then ['0'] else cs) := by
    intro cs h
    split_ifs
    · decide
    · exact h
  refine hzero _ ?_
  cases v with
  | finite neg m e => exact plain_withoutEndZeros (plain_fixedView 3 _)
  | undefined => exact plain_specialText .undefined
  | infinite neg => exact plain_specialText (.infinite neg)

theorem plain_compact (x : Number) : Plain x.compact := plain_viewText _

end Number

theorem Value.plain_written {write : Float → List Char} (hw : ∀ x, Plain (write x)) {v : Value} {cs : List Char}
    (h : v.written write = .ok cs) : Plain cs := by
  unfold Value.written at h
  split at h
  · cases h
    exact hw _
  · split_ifs at h
    cases h
    exact hw _
  · cases h
  · cases h
  · cases h

theorem Value.plain_compact {v : Value} {cs : List Char} (h : v.compact = .ok cs) : Plain cs :=
  plain_written (fun _ => Number.plain_compact _) h

theorem Value.plain_places4 {v : Value} {cs : List Char} (h : v.places4 = .ok cs) : Plain cs :=
  plain_written (fun x => FixedText.plain_fixedView 4 (Binary64.view x)) h

theorem Coordinate.plain_tenths (x : Float) : Plain (tenths x) := by
  have hplain : Plain (oneDecimal (nearestTenth x)) := FixedText.plain_fixedView 1 _
  unfold tenths
  dsimp only
  split_ifs
  · decide
  · exact hplain.sublist (List.take_sublist _ _)
  · exact hplain

namespace Path

theorem plain_joined {separator : List Char} (hs : Plain separator) {texts : List (List Char)}
    (h : ∀ cs ∈ texts, Plain cs) : Plain (joined separator texts) :=
  joined_induction plain_nil (fun _ _ hcs hmore => plain_append.mpr ⟨plain_append.mpr ⟨hcs, hs⟩, hmore⟩) h

theorem plain_pointText {p : Point Value} {cs : List Char} (h : pointText p = .ok cs) : Plain cs := by
  obtain ⟨x, hx, h⟩ := bind_eq_ok h
  obtain ⟨y, hy, h⟩ := bind_eq_ok h
  cases h
  exact plain_append.mpr ⟨Value.plain_compact hx, plain_cons.mpr ⟨by decide, Value.plain_compact hy⟩⟩

theorem isPlain_letter {α : Type} (c : PathCommand α) :
    isPlain c.letter = true ∧ isPlain c.letter.toLower = true := by
  cases c <;> exact ⟨rfl, rfl⟩

theorem plain_commandText {c : PathCommand Value} {cs : List Char} (h : commandText c = .ok cs) : Plain cs := by
  obtain ⟨points, hp, h⟩ := bind_eq_ok h
  cases h
  exact plain_joined (by decide) (List.forall_mem_cons.mpr
    ⟨plain_cons.mpr ⟨(isPlain_letter c).1, plain_nil⟩, mapM_gives plain_pointText hp⟩)

theorem plain_text {o : Outline Value} {cs : List Char} (h : text o = .ok cs) : Plain cs := by
  obtain ⟨commands, hc, h⟩ := bind_eq_ok h
  cases h
  exact plain_joined (by decide) (mapM_gives plain_commandText hc)

theorem plain_tenthsText (p : Point Float) : Plain (tenthsText p) :=
  plain_append.mpr ⟨Coordinate.plain_tenths _, plain_cons.mpr ⟨by decide, Coordinate.plain_tenths _⟩⟩

theorem plain_shortCommandText (c : PathCommand Float) : Plain (shortCommandText c) := by
  have hpoints : ∀ cs ∈ c.points.map tenthsText, Plain cs := by
    intro cs hcs
    obtain ⟨p, -, rfl⟩ := List.mem_map.mp hcs
    exact plain_tenthsText p
  unfold shortCommandText
  split
  · exact plain_cons.mpr ⟨by decide, plain_tenthsText _⟩
  · exact plain_cons.mpr ⟨(isPlain_letter c).2, plain_joined (by decide) hpoints⟩

/-- Shorter path data is as plain as what it was made from. -/
theorem plain_optimize {long cs : List Char} (hl : Plain long) (h : optimize long = .ok cs) : Plain cs := by
  unfold optimize optimizeIn at h
  split_ifs at h
  · cases h
    exact hl
  · obtain ⟨commands, -, h⟩ := bind_eq_ok h
    cases h
    intro c hc
    obtain ⟨short, hshort, hmem⟩ := List.mem_flatten.mp hc
    obtain ⟨command, -, rfl⟩ := List.mem_map.mp hshort
    exact plain_shortCommandText command c hmem

theorem plain_shortened {o : Outline Value} {cs : List Char} (h : shortened o = .ok cs) : Plain cs := by
  obtain ⟨long, hl, h⟩ := bind_eq_ok h
  exact plain_optimize (plain_text hl) h

end Path

theorem Box.plain_viewBoxText {b : Box Value} {cs : List Char} (h : b.viewBoxText = .ok cs) : Plain cs := by
  obtain ⟨x, hx, h⟩ := bind_eq_ok h
  obtain ⟨y, hy, h⟩ := bind_eq_ok h
  obtain ⟨width, hw, h⟩ := bind_eq_ok h
  obtain ⟨height, hh, h⟩ := bind_eq_ok h
  cases h
  exact Path.plain_joined (by decide) (by
    simp [Value.plain_compact hx, Value.plain_compact hy, Value.plain_compact hw, Value.plain_compact hh])

theorem Caption.plain_turnText {angle x y : List Char} (ha : Plain angle) (hx : Plain x) (hy : Plain y) :
    Plain (Caption.turnText angle x y) := by
  have hinside : Plain (Path.joined [',', ' '] [angle, x, y]) :=
    Path.plain_joined (by decide) (by simp [ha, hx, hy])
  exact plain_append.mpr ⟨plain_append.mpr ⟨by decide, hinside⟩, by decide⟩

theorem Svg.plain_captionPathId (index : Nat) : Plain (Svg.captionPathId index) :=
  plain_append.mpr ⟨by decide, plain_digitsOf index⟩

end NodeLink
