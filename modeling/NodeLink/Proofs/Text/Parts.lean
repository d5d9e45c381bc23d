import NodeLink.Text.Blank

/-!
# Parts between marks

A text that is split at every mark falls apart at each of them on its own. Lines are the parts between
line breaks, except for empty ones: a carriage return with a line feed behind it leaves none between
them, and a break at the end opens none.
-/

namespace NodeLink.Text

variable {p : Char → Bool} {c : Char}

theorem splitAtEach_ne_nil (p : Char → Bool) (cs : List Char) : splitAtEach p cs ≠ [] := by
  cases cs with
  | nil => exact List.cons_ne_nil _ _
  | cons c cs =>
    rw [splitAtEach]
    split
    · exact List.cons_ne_nil _ _
    · split <;> exact List.cons_ne_nil _ _

theorem splitAtEach_cons (hc : p c = false) (cs : List Char) :
    ∃ part parts, splitAtEach p cs = part :: parts ∧ splitAtEach p (c :: cs) = (c :: part) :: parts := by
  obtain ⟨part, parts, h⟩ := List.exists_cons_of_ne_nil (splitAtEach_ne_nil p cs)
  refine ⟨part, parts, h, ?_⟩
  rw [splitAtEach, if_neg (by simp [hc]), h]

/-- A mark ends the parts before it, and those behind it begin anew. -/
theorem splitAtEach_append_cons (hc : p c = true) (before after : List Char) :
    splitAtEach p (before ++ c :: after) = splitAtEach p before ++ splitAtEach p after := by
  induction before with
  | nil => simp [splitAtEach, hc]
  | cons a before ih =>
    rw [List.cons_append, splitAtEach, ih, splitAtEach]
    split
    · rfl
    · obtain ⟨part, parts, h⟩ := List.exists_cons_of_ne_nil (splitAtEach_ne_nil p before)
      simp [h]

/-- What is no mark goes to the first part of what stands behind it. -/
theorem splitAtEach_append {front rest part : List Char} {parts : List (List Char)} (hfront : ∀ c ∈ front, p c = false)
    (hrest : splitAtEach p rest = part :: parts) : splitAtEach p (front ++ rest) = (front ++ part) :: parts := by
  induction front with
  | nil => exact hrest
  | cons c front ih =>
    obtain ⟨hc, hfront⟩ := List.forall_mem_cons.mp hfront
    rw [List.cons_append, splitAtEach, ih hfront]
    simp [hc]

theorem splitAtEach_of_none {cs : List Char} (h : ∀ c ∈ cs, p c = false) : splitAtEach p cs = [cs] := by
  induction cs with
  | nil => rfl
  | cons c cs ih =>
    obtain ⟨hc, hcs⟩ := List.forall_mem_cons.mp h
    simp [splitAtEach, hc, ih hcs]

/-- Only what the characters of a text are counts for its parts. -/
theorem splitAtEach_congr {q : Char → Bool} {cs : List Char} (h : ∀ c ∈ cs, p c = q c) :
    splitAtEach p cs = splitAtEach q cs := by
  induction cs with
  | nil => rfl
  | cons c cs ih =>
    obtain ⟨hc, hcs⟩ := List.forall_mem_cons.mp h
    rw [splitAtEach, splitAtEach, hc, ih hcs]

/-- A character that is no mark goes to the last part. -/
theorem splitAtEach_concat (hc : p c = false) (cs : List Char) :
    ∃ parts last, splitAtEach p cs = parts ++ [last] ∧
      splitAtEach p (cs ++ [c]) = parts ++ [last ++ [c]] := by
  induction cs with
  | nil => exact ⟨[], [], rfl, by simp [splitAtEach, hc]⟩
  | cons a cs ih =>
    obtain ⟨parts, last, h, hlast⟩ := ih
    cases ha : p a with
    | true => exact ⟨[] :: parts, last, by simp [splitAtEach, ha, h], by simp [splitAtEach, ha, hlast]⟩
    | false =>
      cases parts with
      | nil => exact ⟨[], a :: last, by simp [splitAtEach, ha, h], by simp [splitAtEach, ha, hlast]⟩
      | cons first parts =>
        exact ⟨(a :: first) :: parts, last, by simp [splitAtEach, ha, h],
          by simp [splitAtEach, ha, hlast]⟩

theorem splitAtEach_parts {cs part : List Char} (h : part ∈ splitAtEach p cs) : ∀ c ∈ part, p c = false := by
  induction cs generalizing part with
  | nil =>
    rw [List.mem_singleton.mp h]
    exact nofun
  | cons c cs ih =>
    cases hc : p c with
    | true =>
      rw [splitAtEach, if_pos hc] at h
      rcases List.mem_cons.mp h with rfl | h
      · exact nofun
      · exact ih h
    | false =>
      obtain ⟨first, parts, hparts, hcons⟩ := splitAtEach_cons hc cs
      rw [hcons] at h
      rw [hparts] at ih
      rcases List.mem_cons.mp h with rfl | h
      · exact List.forall_mem_cons.mpr ⟨hc, ih List.mem_cons_self⟩
      · exact ih (List.mem_cons_of_mem _ h)

theorem splitAtEach_within {cs part : List Char} (h : part ∈ splitAtEach p cs) : part <:+: cs := by
  have hparts (cs : List Char) : ∃ first rest, splitAtEach p cs = first :: rest ∧ first <+: cs ∧
      ∀ part ∈ rest, part <:+: cs := by
    induction cs with
    | nil => exact ⟨[], [], rfl, List.prefix_rfl, nofun⟩
    | cons c cs ih =>
      obtain ⟨first, rest, hcs, hfirst, hrest⟩ := ih
      have hlater : ∀ part ∈ rest, part <:+: c :: cs := fun part hm =>
        (hrest part hm).trans (List.suffix_cons c cs).isInfix
      cases hc : p c with
      | true =>
        refine ⟨[], first :: rest, by simp [splitAtEach, hc, hcs], List.nil_prefix, ?_⟩
        exact List.forall_mem_cons.mpr
          ⟨hfirst.isInfix.trans (List.suffix_cons c cs).isInfix, hlater⟩
      | false =>
        exact ⟨c :: first, rest, by simp [splitAtEach, hc, hcs], (List.prefix_cons_inj c).mpr hfirst,
          hlater⟩
  obtain ⟨first, rest, hcs, hfirst, hrest⟩ := hparts cs
  rw [hcs] at h
  rcases List.mem_cons.mp h with rfl | h
  · exact hfirst.isInfix
  · exact hrest part h

theorem exists_part {cs : List Char} (hm : c ∈ cs) (hc : p c = false) : ∃ part ∈ splitAtEach p cs, c ∈ part := by
  obtain ⟨before, after, rfl⟩ := List.append_of_mem hm
  induction before with
  | nil =>
    obtain ⟨part, parts, -, hcons⟩ := splitAtEach_cons hc after
    exact ⟨c :: part, by simp [hcons], by simp⟩
  | cons a before ih =>
    obtain ⟨part, hpart, hin⟩ := ih (by simp)
    rw [List.cons_append]
    cases ha : p a with
    | true => exact ⟨part, by simp [splitAtEach, ha, hpart], hin⟩
    | false =>
      obtain ⟨first, parts, hparts, hcons⟩ := splitAtEach_cons ha (before ++ c :: after)
      rw [hparts] at hpart
      rw [hcons]
      rcases List.mem_cons.mp hpart with rfl | hpart
      · exact ⟨a :: part, by simp, by simp [hin]⟩
      · exact ⟨part, by simp [hpart], hin⟩

/-- To split at two kinds of marks is to split at one of them, and every part at the other. -/
theorem splitAtEach_or (p q : Char → Bool) (cs : List Char) :
    splitAtEach (fun c => p c || q c) cs = (splitAtEach q cs).flatMap (splitAtEach p) := by
  induction cs with
  | nil => rfl
  | cons c cs ih =>
    cases hq : q c with
    | true => simp [splitAtEach, hq, ih]
    | false =>
      obtain ⟨part, parts, hparts, hcons⟩ := splitAtEach_cons hq cs
      rw [hparts, List.flatMap_cons] at ih
      rw [hcons, List.flatMap_cons]
      cases hp : p c with
      | true => simp [splitAtEach, hp, ih]
      | false =>
        obtain ⟨first, rest, hfirst, hboth⟩ := splitAtEach_cons hp part
        rw [hfirst] at ih
        rw [hboth, splitAtEach, ih]
        simp [hp, hq]

theorem flatMap_headD_tail {α : Type} {f : List Char → List α} (hf : f [] = []) (ls : List (List Char)) :
    ls.flatMap f = f (ls.headD []) ++ ls.tail.flatMap f := by
  cases ls with
  | nil => simp [hf]
  | cons l ls => rfl

/-- The first line is the first part, and the other lines are the other parts but for empty ones. -/
theorem lines_eq_parts {α : Type} {f : List Char → List α} (hf : f [] = []) (text : List Char) :
    (lines text).headD [] = (splitAtEach isLineBreak text).headD [] ∧
      (lines text).tail.flatMap f = (splitAtEach isLineBreak text).tail.flatMap f := by
  induction text using lines.induct with
  | case1 => exact ⟨rfl, rfl⟩
  | case2 cs ih =>
    -- a carriage return with its line feed ends one line, but there is an empty part between the two
    have hr : isLineBreak '\r' = true := rfl
    have hn : isLineBreak '\n' = true := rfl
    refine ⟨by simp [lines, splitAtEach, hr], ?_⟩
    simp only [lines, splitAtEach, hr, hn, if_true, List.tail_cons, List.flatMap_cons, hf,
      List.nil_append]
    rw [flatMap_headD_tail hf, flatMap_headD_tail hf (splitAtEach _ _), ih.1, ih.2]
  | case3 c cs hpair hc ih =>
    rw [lines, if_pos hc]
    · refine ⟨by simp [splitAtEach, hc], ?_⟩
      simp only [splitAtEach, hc, if_true, List.tail_cons]
      rw [flatMap_headD_tail hf, flatMap_headD_tail hf (splitAtEach _ _), ih.1, ih.2]
    · exact hpair
  | case4 c cs hpair hc hlines ih =>
    obtain ⟨part, parts, hparts, hcons⟩ := splitAtEach_cons (by simpa using hc) cs
    rw [lines, if_neg hc, hlines, hcons]
    · rw [hlines, hparts] at ih
      obtain ⟨hhead, htail⟩ := ih
      simp only [List.headD_nil, List.headD_cons] at hhead
      subst hhead
      exact ⟨rfl, htail⟩
    · exact hpair
  | case5 c cs hpair hc l ls hlines ih =>
    obtain ⟨part, parts, hparts, hcons⟩ := splitAtEach_cons (by simpa using hc) cs
    rw [lines, if_neg hc, hlines, hcons]
    · rw [hlines, hparts] at ih
      obtain ⟨hhead, htail⟩ := ih
      simp only [List.headD_cons] at hhead
      subst hhead
      exact ⟨rfl, htail⟩
    · exact hpair

/-- What lines come to, where empty ones come to nothing, is what the parts between breaks come to. -/
theorem flatMap_lines {α : Type} {f : List Char → List α} (hf : f [] = []) (text : List Char) :
    (lines text).flatMap f = (splitAtEach isLineBreak text).flatMap f := by
  obtain ⟨hhead, htail⟩ := lines_eq_parts hf text
  obtain ⟨part, parts, hparts⟩ := List.exists_cons_of_ne_nil (splitAtEach_ne_nil isLineBreak text)
  rw [hparts] at hhead htail ⊢
  cases hlines : lines text with
  | nil =>
    rw [hlines] at hhead htail
    cases hhead
    simpa [hf] using htail
  | cons l ls =>
    rw [hlines] at hhead htail
    cases hhead
    simpa using htail

end NodeLink.Text
