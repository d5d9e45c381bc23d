import NodeLink.Text.FileName
import NodeLink.Proofs.Text.Cutting
import Mathlib.Data.List.Infix
import Mathlib.Data.List.Chain

/-!
# What file names are made of

The slug of a title has only small letters, digits, underscores and single dashes in it, whatever the title is.
Of such a text nothing is dropped, joined or put in small letters any more.
-/

namespace NodeLink.Text.FileName

variable {c : Char} {cs : List Char} {p : Char → Bool} {inRun : Bool}

/-- A text of the characters of names without two dashes in a row. -/
structure IsSlug (cs : List Char) : Prop where
  chars : ∀ c ∈ cs, isStemChar c = true
  single : cs.IsChain fun a b => a = '-' → b ≠ '-'

/-! ### Characters of names -/

theorem code_of_isStemChar (h : isStemChar c = true) :
    97 ≤ c.toNat ∧ c.toNat ≤ 122 ∨ 48 ≤ c.toNat ∧ c.toNat ≤ 57 ∨ c.toNat = 95 ∨ c.toNat = 45 := by
  simp only [isStemChar, Bool.or_eq_true, Bool.and_eq_true, decide_eq_true_eq, beq_iff_eq, Char.le_def,
    UInt32.le_iff_toNat_le] at h
  rcases h with ((hletter | hdigit) | hline) | hdash
  · exact Or.inl hletter
  · exact Or.inr (Or.inl hdigit)
  · exact Or.inr (Or.inr (Or.inl (congrArg Char.toNat hline)))
  · exact Or.inr (Or.inr (Or.inr (congrArg Char.toNat hdash)))

theorem not_isBlank_of_isStemChar (h : isStemChar c = true) : isBlank c = false := by
  have hcode := code_of_isStemChar h
  simp only [isBlank, Bool.or_eq_false_iff, Bool.and_eq_false_iff, decide_eq_false_iff_not, beq_eq_false_iff_ne]
  omega

theorem smallLetter_of_isStemChar (h : isStemChar c = true) : smallLetter c = c := by
  have hcode := code_of_isStemChar h
  have hcapital : ¬ ('A' ≤ c ∧ c ≤ 'Z') := by
    simp only [Char.le_def, UInt32.le_iff_toNat_le]
    change ¬ (65 ≤ c.toNat ∧ c.toNat ≤ 90)
    omega
  rw [smallLetter, if_neg hcapital, if_pos (by omega)]

theorem inSmallLetters_of_stemChars (h : ∀ c ∈ cs, isStemChar c = true) : inSmallLetters cs = cs := by
  have hchar : ∀ c ∈ cs, (if c = '\u0130' then ['i', '\u0307'] else [smallLetter c]) = [c] := by
    intro c hc
    have hdotted : c ≠ '\u0130' := ne_of_test (h c hc) (by decide)
    rw [if_neg hdotted, smallLetter_of_isStemChar (h c hc)]
  rw [inSmallLetters, List.flatMap_congr hchar, List.flatMap_singleton']

theorem trim_of_unblank (h : ∀ c ∈ cs, isBlank c = false) : trim cs = cs := by
  cases cs with
  | nil => rfl
  | cons c cs => simpa using trim_blanks [] [] nofun nofun h (List.cons_ne_nil c cs)

/-! ### Runs -/

theorem mem_dashRuns (h : c ∈ dashRuns p inRun cs) : c = '-' ∨ c ∈ cs ∧ p c = false := by
  induction cs generalizing inRun with
  | nil => cases h
  | cons a cs ih =>
    rw [dashRuns] at h
    cases ha : p a with
    | true =>
      rw [if_pos ha] at h
      rcases List.mem_append.mp h with hfirst | hrest
      · cases inRun with
        | true => cases hfirst
        | false => exact Or.inl (List.mem_singleton.mp hfirst)
      · exact (ih hrest).imp_right fun ⟨hm, hc⟩ => ⟨List.mem_cons_of_mem a hm, hc⟩
    | false =>
      rw [if_neg (by simp [ha])] at h
      rcases List.mem_cons.mp h with rfl | hrest
      · exact Or.inr ⟨List.mem_cons_self, ha⟩
      · exact (ih hrest).imp_right fun ⟨hm, hc⟩ => ⟨List.mem_cons_of_mem a hm, hc⟩

theorem dashRuns_of_none (h : ∀ c ∈ cs, p c = false) : dashRuns p inRun cs = cs := by
  induction cs generalizing inRun with
  | nil => rfl
  | cons c cs ih =>
    obtain ⟨hc, hcs⟩ := List.forall_mem_cons.mp h
    rw [dashRuns, if_neg (by simp [hc]), ih hcs]

/-- After runs of dashes are joined no dash follows another, nor one that stands in front. -/
theorem isChain_dashRuns (cs : List Char) :
    (dashRuns isDash false cs).IsChain (fun a b => a = '-' → b ≠ '-') ∧
      ('-' :: dashRuns isDash true cs).IsChain fun a b => a = '-' → b ≠ '-' := by
  induction cs with
  | nil => exact ⟨.nil, .singleton _⟩
  | cons c cs ih =>
    obtain ⟨hfalse, htrue⟩ := ih
    rw [dashRuns, dashRuns]
    by_cases hc : c = '-'
    · subst c
      exact ⟨htrue, htrue⟩
    · have hnot : ¬ isDash c = true := by simpa [isDash] using hc
      have hlater : (c :: dashRuns isDash false cs).IsChain fun a b => a = '-' → b ≠ '-' := by
        cases hrest : dashRuns isDash false cs with
        | nil => exact .singleton c
        | cons d rest => exact .cons_cons (fun h => absurd h hc) (hrest ▸ hfalse)
      rw [if_neg hnot, if_neg hnot]
      exact ⟨hlater, .cons_cons (fun _ => hc) hlater⟩

/-- Where no dash follows another, nothing is joined; not behind a dash either, if the text begins with none. -/
theorem dashRuns_of_isChain (h : cs.IsChain fun a b => a = '-' → b ≠ '-') :
    dashRuns isDash false cs = cs ∧ (cs.head? ≠ some '-' → dashRuns isDash true cs = cs) := by
  induction cs with
  | nil => exact ⟨rfl, fun _ => rfl⟩
  | cons c cs ih =>
    obtain ⟨hfalse, htrue⟩ := ih h.tail
    rw [dashRuns, dashRuns]
    by_cases hc : c = '-'
    · subst c
      refine ⟨?_, fun hne => absurd rfl hne⟩
      have hhead : cs.head? ≠ some '-' := by
        cases cs with
        | nil => exact nofun
        | cons d cs => exact fun he => h.rel rfl (Option.some.inj he)
      exact congrArg ('-' :: ·) (htrue hhead)
    · have hnot : ¬ isDash c = true := by simpa [isDash] using hc
      rw [if_neg hnot, if_neg hnot, hfalse]
      exact ⟨rfl, fun _ => rfl⟩

/-! ### Slugs -/

theorem isSlug_slug (title : List Char) : IsSlug (slug title) where
  chars := by
    intro c hc
    rcases mem_dashRuns hc with rfl | ⟨hc, -⟩
    · decide
    · rcases mem_dashRuns hc with rfl | ⟨hc, hblank⟩
      · decide
      · have hkept := List.of_mem_filter hc
        rwa [isKept, hblank, Bool.or_false] at hkept
  single := (isChain_dashRuns _).1

theorem IsSlug.slug_eq (h : IsSlug cs) : slug cs = cs := by
  have hblanks : ∀ c ∈ cs, isBlank c = false := fun c hc => not_isBlank_of_isStemChar (h.chars c hc)
  have hkept : ∀ c ∈ cs, isKept c = true := by
    intro c hc
    rw [isKept, h.chars c hc, Bool.true_or]
  change dashRuns isDash false (dashRuns isBlank false ((inSmallLetters (trim cs)).filter isKept)) = cs
  rw [trim_of_unblank hblanks, inSmallLetters_of_stemChars h.chars, List.filter_eq_self.mpr hkept,
    dashRuns_of_none hblanks, (dashRuns_of_isChain h.single).1]

theorem isSlug_stem (title : List Char) : IsSlug (stem title) := by
  unfold stem
  split
  · exact ⟨List.all_eq_true.mp (by decide), by decide⟩
  · exact isSlug_slug title

theorem stem_ne_nil (title : List Char) : stem title ≠ [] := by
  unfold stem
  split
  · decide
  · rename_i hsome
    exact fun hnil => hsome (List.isEmpty_iff.mpr hnil)

theorem IsSlug.stem_eq (h : IsSlug cs) (hne : cs ≠ []) : stem cs = cs := by
  have hsome : ¬ (slug cs).isEmpty = true := by
    rw [h.slug_eq, List.isEmpty_iff]
    exact hne
  rw [stem, if_neg hsome, h.slug_eq]

theorem stem_stem (title : List Char) : stem (stem title) = stem title :=
  (isSlug_stem title).stem_eq (stem_ne_nil title)

theorem IsSlug.no_pair (h : IsSlug cs) : ¬ ['-', '-'] <:+: cs := by
  intro hpair
  have hchain : ['-', '-'].IsChain fun a b => a = '-' → b ≠ '-' := h.single.infix hpair
  exact hchain.rel rfl rfl

/-- A title with runs of blanks and dashes and a path in it. -/
example : stem " Kin -  ../x ".toList = "kin-x".toList := by decide +kernel

end NodeLink.Text.FileName
