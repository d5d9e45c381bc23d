import NodeLink.Text.Blank
import NodeLink.Text.Digit

/-!
# Cutting texts

What a lead, a mark, blanks and digits leave of a text: what is cut off and what stays make up the text.
-/

namespace NodeLink.Text

variable {lead mark cs rest left right name before after : List Char}

/-- Characters that a test tells apart are not the same. -/
theorem ne_of_test {test : Char → Bool} {c d : Char} (hc : test c = true) (hd : test d = false) :
    c ≠ d := by
  rintro rfl
  rw [hc] at hd
  cases hd

/-- The code points of the blanks. -/
def blankCodes : List Nat :=
  [9, 10, 11, 12, 13, 28, 29, 30, 31, 32, 0x85, 0xA0, 0x1680, 0x2000, 0x2001, 0x2002, 0x2003, 0x2004, 0x2005, 0x2006,
    0x2007, 0x2008, 0x2009, 0x200A, 0x2028, 0x2029, 0x202F, 0x205F, 0x3000]

/-- A test that fails on the code points of the blanks fails on blanks. -/
theorem false_of_isBlank {test : Char → Bool} {c : Char} (h : ∀ n ∈ blankCodes, test (Char.ofNat n) = false)
    (hc : isBlank c = true) : test c = false := by
  rw [← Char.ofNat_toNat c]
  apply h
  simp only [isBlank, Bool.or_eq_true, Bool.and_eq_true, decide_eq_true_eq, beq_iff_eq] at hc
  simp only [blankCodes, List.mem_cons, List.not_mem_nil, or_false]
  omega

theorem not_isBlank_of_isDigit {c : Char} (hdigit : isDigit c = true) : isBlank c = false := by
  cases hblank : isBlank c with
  | false => rfl
  | true =>
    have hnone : isDigit c = false := false_of_isBlank (by decide) hblank
    rw [hdigit] at hnone
    cases hnone

theorem afterLead?_eq_some : afterLead? lead cs = some rest ↔ cs = lead ++ rest := by
  induction lead generalizing cs with
  | nil => simp [afterLead?, eq_comm]
  | cons a lead ih =>
    cases cs with
    | nil => simp [afterLead?]
    | cons c cs =>
      by_cases hac : a = c
      · subst hac
        simp [afterLead?, ih]
      · simp [afterLead?, hac, Ne.symm hac]

@[simp] theorem afterLead?_append (lead rest : List Char) : afterLead? lead (lead ++ rest) = some rest :=
  afterLead?_eq_some.mpr rfl

/-- A text that does not begin with a lead does not begin with it when something is added behind it that
starts with a character that the lead does not have. -/
theorem afterLead?_append_cons {c : Char} (h : startsWith lead left = false) (hc : c ∉ lead) :
    afterLead? lead (left ++ c :: rest) = none := by
  induction left generalizing lead with
  | nil =>
    cases lead with
    | nil => simp [startsWith, afterLead?] at h
    | cons a lead =>
      have hac : a ≠ c := fun he => hc (by simp [he])
      simp [afterLead?, hac]
  | cons b left ih =>
    cases lead with
    | nil => simp [startsWith, afterLead?] at h
    | cons a lead =>
      by_cases hab : a = b
      · subst hab
        simp only [List.cons_append, afterLead?, if_true]
        exact ih (by simpa [startsWith, afterLead?] using h) fun hm => hc (List.mem_cons_of_mem a hm)
      · simp [afterLead?, hab]

theorem cutAt?_eq (h : cutAt? mark cs = some (left, right)) : cs = left ++ mark ++ right := by
  induction cs generalizing left with
  | nil =>
    simp only [cutAt?, Option.ite_none_right_eq_some, List.isEmpty_iff, Option.some.injEq,
      Prod.mk.injEq] at h
    obtain ⟨rfl, rfl, rfl⟩ := h
    rfl
  | cons c cs ih =>
    unfold cutAt? at h
    split at h
    · rename_i found hf
      cases h
      exact afterLead?_eq_some.mp hf
    · obtain ⟨⟨l, r⟩, hcut, he⟩ := Option.map_eq_some_iff.mp h
      cases he
      rw [ih hcut]
      rfl

theorem cutAt?_none (h : cutAt? mark cs = none) : ¬ mark <:+: cs := by
  induction cs with
  | nil =>
    rw [List.infix_nil]
    rintro rfl
    cases h
  | cons c cs ih =>
    unfold cutAt? at h
    split at h
    · cases h
    · rename_i hlead
      rw [List.infix_cons_iff, not_or]
      refine ⟨?_, ih (Option.map_eq_none_iff.mp h)⟩
      rintro ⟨rest, hrest⟩
      rw [afterLead?_eq_some.mpr hrest.symm] at hlead
      cases hlead

theorem dropWhile_blanks (hb : ∀ c ∈ before, isBlank c = true) (hn : ∀ c ∈ name, isBlank c = false)
    (ne : name ≠ []) : (before ++ name).dropWhile isBlank = name := by
  rw [List.dropWhile_append_of_pos hb]
  cases name with
  | nil => exact absurd rfl ne
  | cons c cs => simp [hn c (by simp)]

/-- The blanks at both ends of a name are dropped. -/
theorem trim_blanks (before after : List Char) (hb : ∀ c ∈ before, isBlank c = true)
    (ha : ∀ c ∈ after, isBlank c = true) (hn : ∀ c ∈ name, isBlank c = false) (ne : name ≠ []) :
    trim (before ++ name ++ after) = name := by
  have hstart : trimStart (before ++ name ++ after) = name ++ after := by
    cases name with
    | nil => exact absurd rfl ne
    | cons c cs =>
      rw [trimStart, List.append_assoc, List.dropWhile_append_of_pos hb]
      simp [hn c (by simp)]
  rw [trim, hstart, trimEnd, List.reverse_append,
    dropWhile_blanks (by simpa using ha) (by simpa using hn) (by simpa using ne), List.reverse_reverse]

theorem splitBlanks_append (hn : ∀ c ∈ name, isBlank c = false) :
    splitBlanks (name ++ rest) = (name ++ (splitBlanks rest).1, (splitBlanks rest).2) := by
  induction name with
  | nil => rfl
  | cons c name ih =>
    rw [List.cons_append, splitBlanks, ih fun d hd => hn d (List.mem_cons_of_mem c hd)]
    simp [hn c (by simp)]

theorem words_append (rest : List Char) (hn : ∀ c ∈ name, isBlank c = false) (ne : name ≠ []) :
    words (name ++ rest) = (name ++ (splitBlanks rest).1) :: (splitBlanks rest).2 := by
  rw [words, splitBlanks_append hn]
  simp [ne]

end NodeLink.Text
