import NodeLink.Icon.Symbol
import NodeLink.Proofs.Outcome
import NodeLink.Proofs.Text.Cutting
import Mathlib.Data.List.Infix
import Mathlib.Data.List.TakeWhile

/-!
# What a symbol takes from an icon

The root of an icon is its first svg element, up to the last closing tag, whatever stands between the two. The symbol
holds what is inside, and of the root's tag it keeps the view box and the fill.
-/

namespace NodeLink.Symbol

open NodeLink.Text

variable {name letters spelled cs before after rest tag inside front back value : List Char} {c : Char}

/-! ## Names in any letter case -/

/-- A letter in any case; a long s is a small s. -/
def IsCaseOf (letter c : Char) : Prop := c = letter ∨ c = letter.toUpper ∨ letter = 's' ∧ c = '\u017F'

/-- A text that holds a name in any letter case. -/
def Holds (name cs : List Char) : Prop :=
  ∃ before spelled after, cs = before ++ spelled ++ after ∧ List.Forall₂ IsCaseOf name spelled

theorem isLetterOf_iff {letter : Char} : isLetterOf letter c = true ↔ IsCaseOf letter c := by
  simp [isLetterOf, IsCaseOf, or_assoc]

theorem afterName?_eq_some :
    afterName? name cs = some rest ↔ ∃ spelled, cs = spelled ++ rest ∧ List.Forall₂ IsCaseOf name spelled := by
  induction name generalizing cs with
  | nil => simp [afterName?, eq_comm]
  | cons letter letters ih =>
    cases cs with
    | nil => simp [afterName?]
    | cons c cs =>
      by_cases hc : isLetterOf letter c = true
      · rw [afterName?, if_pos hc, ih]
        constructor
        · rintro ⟨spelled, rfl, hspelled⟩
          exact ⟨c :: spelled, rfl, .cons (isLetterOf_iff.mp hc) hspelled⟩
        · rintro ⟨_, heq, hspelled⟩
          cases hspelled with
          | cons _ hrest => exact ⟨_, (List.cons.inj heq).2, hrest⟩
      · rw [afterName?, if_neg hc]
        refine iff_of_false nofun ?_
        rintro ⟨_, heq, hspelled⟩
        cases hspelled with
        | cons hletter _ => exact hc ((List.cons.inj heq).1 ▸ isLetterOf_iff.mpr hletter)

theorem afterName?_append (name rest : List Char) : afterName? name (name ++ rest) = some rest :=
  afterName?_eq_some.mpr ⟨name, rfl, List.forall₂_same.mpr fun _ _ => Or.inl rfl⟩

theorem not_holds_of_cons (h : ¬ Holds name (c :: cs)) : ¬ Holds name cs := by
  rintro ⟨before, spelled, after, rfl, hspelled⟩
  exact h ⟨c :: before, spelled, after, rfl, hspelled⟩

theorem holds_iff : Holds name cs ↔ ∃ rest ∈ cs.tails, (afterName? name rest).isSome = true := by
  constructor
  · rintro ⟨before, spelled, after, rfl, hspelled⟩
    have hname : afterName? name (spelled ++ after) = some after := afterName?_eq_some.mpr ⟨spelled, rfl, hspelled⟩
    exact ⟨spelled ++ after, (List.mem_tails _ _).mpr ⟨before, by simp⟩, by rw [hname]; rfl⟩
  · rintro ⟨rest, hrest, hname⟩
    obtain ⟨before, rfl⟩ := (List.mem_tails _ _).mp hrest
    obtain ⟨after, hafter⟩ := Option.isSome_iff_exists.mp hname
    obtain ⟨spelled, rfl, hspelled⟩ := afterName?_eq_some.mp hafter
    exact ⟨before, spelled, after, by simp, hspelled⟩

instance (name cs : List Char) : Decidable (Holds name cs) := decidable_of_iff _ holds_iff.symm

theorem afterName?_none (h : ¬ Holds name cs) : afterName? name cs = none := by
  refine Option.eq_none_iff_forall_ne_some.mpr fun rest hrest => ?_
  obtain ⟨spelled, rfl, hspelled⟩ := afterName?_eq_some.mp hrest
  exact h ⟨[], spelled, rest, rfl, hspelled⟩

/-- A name whose angle bracket stands in front only does not begin in a text and end behind it, where the text goes on
with an angle bracket. -/
theorem afterName?_across (rest : List Char) (hletters : ∀ letter ∈ letters, ¬ IsCaseOf letter '<')
    (h : ¬ Holds ('<' :: letters) (c :: cs)) : afterName? ('<' :: letters) (c :: cs ++ '<' :: rest) = none := by
  refine Option.eq_none_iff_forall_ne_some.mpr fun after hafter => ?_
  obtain ⟨spelled, heq, hspelled⟩ := afterName?_eq_some.mp hafter
  rcases List.append_eq_append_iff.mp heq with ⟨more, rfl, hmore⟩ | ⟨more, hmore, -⟩
  · cases more with
    | nil =>
      rw [List.append_nil] at hspelled
      exact h ⟨[], c :: cs, [], by simp, hspelled⟩
    | cons d more =>
      obtain ⟨rfl, -⟩ := List.cons.inj hmore
      cases hspelled with
      | cons _ hrest =>
        obtain ⟨letter, hletter, hcase⟩ := exists_of_forall₂ hrest (List.mem_append_right cs List.mem_cons_self)
        exact hletters letter hletter hcase
  · exact h ⟨[], spelled, more, hmore, hspelled⟩

/-! ## The root -/

theorem not_isWordChar_of_isBlank (h : isBlank c = true) : isWordChar c = false :=
  false_of_isBlank (by decide +kernel) h

theorem findTag?_append (rest : List Char) (h : ¬ Holds ['<', 's', 'v', 'g'] before) :
    findTag? (before ++ '<' :: rest) = findTag? ('<' :: rest) := by
  have hletters : ∀ letter ∈ ['s', 'v', 'g'], ¬ IsCaseOf letter '<' := by simp [IsCaseOf]
  induction before with
  | nil => rfl
  | cons c before ih =>
    have hname := afterName?_across rest hletters h
    have hnone : tagAt? (c :: (before ++ '<' :: rest)) = none := by
      change (afterName? ['<', 's', 'v', 'g'] (c :: before ++ '<' :: rest)).bind _ = none
      rw [hname]
      rfl
    rw [List.cons_append, findTag?, hnone]
    exact ih (not_holds_of_cons h)

/-- A tag as the root's tag may go on behind its name. -/
structure IsTag (tag : List Char) : Prop where
  apart : tag = [] ∨ ∃ c cs, tag = c :: cs ∧ isBlank c = true
  unclosed : '>' ∉ tag

theorem findTag?_of_tagAt? (h : tagAt? (c :: cs) = some (tag, rest)) : findTag? (c :: cs) = some (tag, rest) := by
  rw [findTag?, h]

theorem findTag?_root (h : IsTag tag) : findTag? ("<svg".toList ++ tag ++ '>' :: rest) = some (tag, rest) := by
  have hends : endsName (tag ++ '>' :: rest) = true := by
    rcases h.apart with rfl | ⟨c, cs, rfl, hc⟩
    · rfl
    · simp [endsName, not_isWordChar_of_isBlank hc]
  have hinside : ∀ c ∈ tag, (decide (c ≠ '>')) = true := by
    intro c hc
    exact decide_eq_true fun heq => h.unclosed (heq ▸ hc)
  have htag : tagAt? ("<svg".toList ++ tag ++ '>' :: rest) = some (tag, rest) := by
    unfold tagAt?
    rw [List.append_assoc]
    change (afterName? "<svg".toList ("<svg".toList ++ (tag ++ '>' :: rest))).bind _ = _
    rw [afterName?_append, Option.bind_some, if_pos hends, List.dropWhile_append_of_pos hinside,
      List.takeWhile_append_of_pos hinside]
    simp
  exact findTag?_of_tagAt? htag

theorem beforeLastClose?_none (h : ¬ Holds ['<', '/', 's', 'v', 'g', '>'] cs) : beforeLastClose? cs = none := by
  induction cs with
  | nil => rfl
  | cons c cs ih => rw [beforeLastClose?, ih (not_holds_of_cons h), afterName?_none h, Option.map_none]

/-- The inside goes up to the last closing tag, with those that are inside it. -/
theorem beforeLastClose?_append (inside : List Char) (h : ¬ Holds ['<', '/', 's', 'v', 'g', '>'] after) :
    beforeLastClose? (inside ++ "</svg>".toList ++ after) = some inside := by
  induction inside with
  | nil =>
    have hrest : beforeLastClose? ("/svg>".toList ++ after) = none := by
      simp [beforeLastClose?, beforeLastClose?_none h, afterName?, isLetterOf]
    change beforeLastClose? ('<' :: ("/svg>".toList ++ after)) = _
    rw [beforeLastClose?, hrest]
    rfl
  | cons c inside ih => rw [List.cons_append, List.cons_append, beforeLastClose?, ih]

/-! ## The fill -/

/-- What a value of a fill stands behind: a blank, the name and an equals sign. -/
def IsOpening (opening : List Char) : Prop :=
  ∃ lead gap, opening = lead :: ("fill".toList ++ gap ++ ['=']) ∧ isBlank lead = true ∧ ∀ c ∈ gap, isBlank c = true

/-- What is taken for a fill at the front of a text: a value behind an opening, in quotes of either kind. -/
def FillAt (cs value : List Char) : Prop :=
  ∃ opening gap q q' rest, cs = opening ++ gap ++ q :: value ++ q' :: rest ∧ IsOpening opening ∧
    (∀ c ∈ gap, isBlank c = true) ∧ isQuote q = true ∧ isQuote q' = true ∧ value ≠ [] ∧ ∀ c ∈ value, isQuote c = false

/-- The first of what is taken for a fill in a tag. -/
def FirstFill (tag value : List Char) : Prop :=
  ∃ front rest, tag = front ++ rest ∧ FillAt rest value ∧
    ∀ front' rest' other, tag = front' ++ rest' → front'.length < front.length → ¬ FillAt rest' other

/-- A fill attribute of a tag, with a value in quotes of one kind. -/
structure FillAttr where
  opening : List Char
  gap : List Char
  quote : Char
  value : List Char
  isOpening : IsOpening opening
  blanks : ∀ c ∈ gap, isBlank c = true
  isQuote : isQuote quote = true
  closed : quote ∉ value
  given : value ≠ []

def FillAttr.text (fill : FillAttr) : List Char := fill.opening ++ fill.gap ++ fill.quote :: fill.value ++ [fill.quote]

/-- An attribute's value at the front of a text. -/
def attrAt? (name : List Char) (value? : List Char → Option (List Char)) : List Char → Option (List Char)
  | [] => none
  | c :: cs => if isBlank c then (afterLead? name cs).bind fun rest => (afterEquals? rest).bind value? else none

theorem attr?_cons {value? : List Char → Option (List Char)} :
    attr? name value? (c :: cs) = (attrAt? name value? (c :: cs)).or (attr? name value? cs) := by
  rw [attrAt?]
  conv => lhs; unfold attr?
  cases (if isBlank c then (afterLead? name cs).bind fun rest => (afterEquals? rest).bind value? else none) with
  | none => rfl
  | some found => rfl

theorem attr?_eq_some {value? : List Char → Option (List Char)} :
    attr? name value? cs = some value ↔ ∃ front rest, cs = front ++ rest ∧ attrAt? name value? rest = some value ∧
      ∀ front' rest', cs = front' ++ rest' → front'.length < front.length → attrAt? name value? rest' = none := by
  -- what is found here has nothing in front of it; if nothing is found here, every front begins with this character
  induction cs with
  | nil =>
    refine iff_of_false nofun ?_
    rintro ⟨front, rest, hcs, hat, -⟩
    obtain ⟨rfl, rfl⟩ := List.append_eq_nil_iff.mp hcs.symm
    cases hat
  | cons c cs ih =>
    rw [attr?_cons]
    cases hhere : attrAt? name value? (c :: cs) with
    | some found =>
      constructor
      · rintro ⟨⟩
        exact ⟨[], c :: cs, rfl, hhere, by simp⟩
      · rintro ⟨front, rest, hcs, hat, hfirst⟩
        cases front with
        | nil =>
          rw [List.nil_append] at hcs
          rw [← hcs, hhere] at hat
          rw [hat]
          rfl
        | cons d front =>
          have hnone := hfirst [] (c :: cs) rfl (by simp)
          rw [hhere] at hnone
          cases hnone
    | none =>
      rw [Option.none_or, ih]
      constructor
      · rintro ⟨front, rest, rfl, hat, hfirst⟩
        refine ⟨c :: front, rest, rfl, hat, fun front' rest' hcs hlt => ?_⟩
        cases front' with
        | nil => rwa [List.nil_append, ← hcs] at *
        | cons d front' => exact hfirst front' rest' (List.cons.inj hcs).2 (by simpa using hlt)
      · rintro ⟨front, rest, hcs, hat, hfirst⟩
        cases front with
        | nil =>
          rw [List.nil_append] at hcs
          rw [← hcs, hhere] at hat
          cases hat
        | cons d front =>
          obtain ⟨rfl, rfl⟩ := List.cons.inj hcs
          exact ⟨front, rest, rfl, hat, fun front' rest' heq hlt =>
            hfirst (c :: front') rest' (by rw [heq, List.cons_append]) (by simpa using hlt)⟩

theorem attr?_eq_none {value? : List Char → Option (List Char)} (h : attr? name value? cs = none)
    (hcs : cs = front ++ rest) : attrAt? name value? rest = none := by
  induction front generalizing cs with
  | nil =>
    rw [hcs, List.nil_append] at h
    cases rest with
    | nil => rfl
    | cons c rest =>
      rw [attr?_cons, Option.or_eq_none_iff] at h
      exact h.1
  | cons c front ih =>
    subst hcs
    rw [List.cons_append, attr?_cons, Option.or_eq_none_iff] at h
    exact ih h.2 rfl

theorem exists_trimStart (cs : List Char) : ∃ gap, cs = gap ++ trimStart cs ∧ ∀ c ∈ gap, isBlank c = true :=
  ⟨cs.takeWhile isBlank, List.takeWhile_append_dropWhile.symm, fun _ hc => List.mem_takeWhile_imp hc⟩

theorem trimStart_append {gap : List Char} (hgap : ∀ c ∈ gap, isBlank c = true) (hc : isBlank c = false) :
    trimStart (gap ++ c :: cs) = c :: cs := by
  rw [trimStart, List.dropWhile_append_of_pos hgap, List.dropWhile_cons, if_neg (by simp [hc])]

theorem afterEquals?_eq_some (h : afterEquals? cs = some rest) :
    ∃ gap gap', cs = gap ++ '=' :: (gap' ++ rest) ∧ (∀ c ∈ gap, isBlank c = true) ∧ ∀ c ∈ gap', isBlank c = true := by
  obtain ⟨gap, hcs, hgap⟩ := exists_trimStart cs
  unfold afterEquals? at h
  split at h
  · rename_i more hmore
    cases h
    obtain ⟨gap', hrest, hgap'⟩ := exists_trimStart more
    exact ⟨gap, gap', by rw [← hrest, ← hmore, ← hcs], hgap, hgap'⟩
  · cases h

theorem inQuotes?_eq_some :
    inQuotes? cs = some value ↔ ∃ q q' rest, cs = q :: value ++ q' :: rest ∧ isQuote q = true ∧ isQuote q' = true ∧
      value ≠ [] ∧ ∀ c ∈ value, isQuote c = false := by
  constructor
  · intro h
    cases cs with
    | nil => cases h
    | cons q cs =>
      simp only [inQuotes?, Option.ite_none_right_eq_some, Bool.and_eq_true, Bool.not_eq_true',
        List.isEmpty_eq_false_iff, Option.some.injEq] at h
      obtain ⟨⟨⟨hq, hvalue⟩, hbehind⟩, rfl⟩ := h
      have hcs := List.takeWhile_append_dropWhile (p := (!isQuote ·)) (l := cs)
      have hfree : ∀ c ∈ cs.takeWhile (!isQuote ·), isQuote c = false := by
        intro c hc
        simpa using List.mem_takeWhile_imp hc
      cases hdrop : cs.dropWhile (!isQuote ·) with
      | nil => exact absurd hdrop hbehind
      | cons q' rest =>
        have hq' := List.head?_dropWhile_not (!isQuote ·) cs
        rw [hdrop] at hq' hcs
        refine ⟨q, q', rest, ?_, hq, by simpa using hq', hvalue, hfree⟩
        rw [List.cons_append, hcs]
  · rintro ⟨q, q', rest, rfl, hq, hq', hvalue, hfree⟩
    have hfree' : ∀ c ∈ value, (!isQuote c) = true := fun c hc => by simp [hfree c hc]
    have htake : (value ++ q' :: rest).takeWhile (!isQuote ·) = value := by
      rw [List.takeWhile_append_of_pos hfree']
      simp [hq']
    have hdrop : (value ++ q' :: rest).dropWhile (!isQuote ·) = q' :: rest := by
      rw [List.dropWhile_append_of_pos hfree']
      simp [hq']
    simp [inQuotes?, htake, hdrop, hq, hvalue]

theorem not_isBlank_of_isQuote (h : isQuote c = true) : isBlank c = false := by
  simp only [isQuote, Bool.or_eq_true, beq_iff_eq] at h
  rcases h with rfl | rfl <;> rfl

theorem attrAt?_eq_some : attrAt? "fill".toList inQuotes? cs = some value ↔ FillAt cs value := by
  constructor
  · intro h
    cases cs with
    | nil => cases h
    | cons lead cs =>
      rw [attrAt?, Option.ite_none_right_eq_some] at h
      obtain ⟨hlead, h⟩ := h
      obtain ⟨named, hnamed, h⟩ := Option.bind_eq_some_iff.mp h
      obtain ⟨quoted, hquoted, hinside⟩ := Option.bind_eq_some_iff.mp h
      obtain ⟨gap, gap', rfl, hgap, hgap'⟩ := afterEquals?_eq_some hquoted
      obtain ⟨q, q', rest, rfl, hq, hq', hvalue, hfree⟩ := inQuotes?_eq_some.mp hinside
      refine ⟨lead :: ("fill".toList ++ gap ++ ['=']), gap', q, q', rest, ?_, ⟨lead, gap, rfl, hlead, hgap⟩, hgap', hq,
        hq', hvalue, hfree⟩
      rw [afterLead?_eq_some.mp hnamed]
      simp
  · rintro ⟨_, gap', q, q', rest, rfl, ⟨lead, gap, rfl, hlead, hgap⟩, hgap', hq, hq', hvalue, hfree⟩
    have hequals : afterEquals? (gap ++ '=' :: (gap' ++ q :: (value ++ q' :: rest))) =
        some (q :: (value ++ q' :: rest)) := by
      rw [afterEquals?, trimStart_append hgap (by decide)]
      exact congrArg some (trimStart_append hgap' (not_isBlank_of_isQuote hq))
    have hquoted := inQuotes?_eq_some.mpr ⟨q, q', rest, rfl, hq, hq', hvalue, hfree⟩
    have htext : lead :: ("fill".toList ++ gap ++ ['=']) ++ gap' ++ q :: value ++ q' :: rest =
        lead :: ("fill".toList ++ (gap ++ '=' :: (gap' ++ q :: (value ++ q' :: rest)))) := by simp
    rw [htext, attrAt?, if_pos hlead, afterLead?_append, Option.bind_some, hequals]
    exact hquoted

theorem firstFill_iff : attr? "fill".toList inQuotes? tag = some value ↔ FirstFill tag value := by
  rw [attr?_eq_some]
  simp only [attrAt?_eq_some, FirstFill, Option.eq_none_iff_forall_ne_some, ne_eq]
  constructor
  · rintro ⟨front, rest, htag, hat, hfirst⟩
    exact ⟨front, rest, htag, hat, fun front' rest' other heq hlt => hfirst front' rest' heq hlt other⟩
  · rintro ⟨front, rest, htag, hat, hfirst⟩
    exact ⟨front, rest, htag, hat, fun front' rest' heq hlt other => hfirst front' rest' other heq hlt⟩

/-- An opening does not begin inside another one. -/
theorem opening_apart {opening middle : List Char} {lead : Char} (ho : IsOpening opening) (hlead : isBlank lead = true)
    (hmiddle : middle ≠ []) (h : opening = middle ++ lead :: cs) (hrest : cs ++ rest = 'f' :: before) : False := by
  obtain ⟨first, gap, rfl, -, hgap⟩ := ho
  obtain ⟨d, middle, rfl⟩ := List.exists_cons_of_ne_nil hmiddle
  obtain ⟨rfl, hbehind⟩ := List.cons.inj h
  cases cs with
  | nil =>
    -- The opening would end with the blank.
    have hend : '=' = lead := List.head_eq_of_cons_eq (List.append_inj' hbehind rfl).2
    rw [← hend] at hlead
    exact absurd hlead (by decide)
  | cons c cs =>
    obtain ⟨rfl, -⟩ := List.cons.inj hrest
    cases middle with
    | nil =>
      have hfirst : 'f' = lead := List.head_eq_of_cons_eq hbehind
      rw [← hfirst] at hlead
      exact absurd hlead (by decide)
    | cons d middle =>
      have htail : "ill".toList ++ gap ++ ['='] = middle ++ lead :: 'f' :: cs := (List.cons.inj hbehind).2
      have hmem : 'f' ∈ "ill".toList ++ gap ++ ['='] := by
        rw [htail]
        simp
      have hnot : 'f' ∉ gap := fun hf => absurd (hgap _ hf) (by decide)
      simp [hnot] at hmem

/-- An opening that begins in front of another one lies before it as a whole. -/
theorem opening_before {opening opening' rest' front' : List Char} (ho : IsOpening opening) (ho' : IsOpening opening')
    (h : front ++ (opening ++ rest) = front' ++ (opening' ++ rest')) (hlt : front'.length < front.length) :
    opening' <:+: front := by
  obtain ⟨lead, gap, rfl, hlead, -⟩ := ho
  obtain ⟨middle, rfl, hrest⟩ : ∃ middle, front = front' ++ middle ∧
      opening' ++ rest' = middle ++ (lead :: ("fill".toList ++ gap ++ ['=']) ++ rest) := by
    rcases List.append_eq_append_iff.mp h with ⟨middle, rfl, -⟩ | ⟨middle, hfront, hrest⟩
    · simp only [List.length_append] at hlt
      omega
    · exact ⟨middle, hfront, hrest⟩
  have hmiddle : middle ≠ [] := by
    rintro rfl
    simp at hlt
  rcases List.append_eq_append_iff.mp hrest with ⟨more, rfl, -⟩ | ⟨more, hmore, hlast⟩
  · exact ⟨front', more, by simp⟩
  · cases more with
    | nil => exact ⟨front', [], by simpa using hmore⟩
    | cons d more =>
      obtain ⟨rfl, hbehind⟩ := List.cons.inj hlast
      exact (opening_apart ho' hlead hmiddle hmore hbehind.symm).elim

/-- A fill attribute is the first of what is taken for a fill, if its value has no quotation marks and no opening
stands before it. -/
theorem FillAttr.firstFill (fill : FillAttr) (hplain : ∀ c ∈ fill.value, Symbol.isQuote c = false)
    (hfront : ∀ opening, IsOpening opening → ¬ opening <:+: front) :
    FirstFill (front ++ fill.text ++ back) fill.value := by
  refine ⟨front, fill.text ++ back, List.append_assoc .., ?_, ?_⟩
  · exact ⟨fill.opening, fill.gap, fill.quote, fill.quote, back, by simp [FillAttr.text], fill.isOpening, fill.blanks,
      fill.isQuote, fill.isQuote, fill.given, hplain⟩
  · rintro front' rest' other heq hlt ⟨opening, gap, q, q', rest, rfl, hopening, -⟩
    have hsplit : front ++ (fill.opening ++ (fill.gap ++ fill.quote :: fill.value ++ [fill.quote] ++ back)) =
        front' ++ (opening ++ (gap ++ q :: other ++ q' :: rest)) := by
      simpa [FillAttr.text] using heq
    exact hfront opening hopening (opening_before fill.isOpening hopening hsplit hlt)

/-! ## Symbols -/

/-- A text with a root element. -/
def documentOf (before tag inside after : List Char) : List Char :=
  before ++ "<svg".toList ++ tag ++ '>' :: inside ++ "</svg>".toList ++ after

def elementOf (id viewBox body : List Char) : List Char :=
  "<symbol id=\"".toList ++ id ++ "\" viewBox=\"".toList ++ viewBox ++ "\">".toList ++ body ++ "</symbol>".toList

def groupOf (fill inside : List Char) : List Char :=
  "<g fill=\"".toList ++ fill ++ "\">".toList ++ inside ++ "</g>".toList

theorem findTag?_documentOf (inside after : List Char) (hbefore : ¬ Holds "<svg".toList before) (htag : IsTag tag) :
    findTag? (documentOf before tag inside after) = some (tag, inside ++ "</svg>".toList ++ after) := by
  have hskip := findTag?_append ("svg".toList ++ tag ++ '>' :: (inside ++ "</svg>".toList ++ after)) hbefore
  simpa [documentOf] using hskip.trans (findTag?_root htag)

theorem viewBoxOf_documentOf (inside after : List Char) (hbefore : ¬ Holds "<svg".toList before) (htag : IsTag tag) :
    viewBoxOf (documentOf before tag inside after) = viewBoxOf ("<svg".toList ++ tag ++ ['>']) := by
  rw [viewBoxOf, findTag?_documentOf inside after hbefore htag, viewBoxOf, findTag?_root htag]

theorem innerOf_documentOf (inside : List Char) (hbefore : ¬ Holds "<svg".toList before) (htag : IsTag tag)
    (hafter : ¬ Holds "</svg>".toList after) : innerOf (documentOf before tag inside after) = trim inside := by
  rw [innerOf, findTag?_documentOf inside after hbefore htag, Option.bind_some, beforeLastClose?_append inside hafter]

theorem fillOf?_documentOf (inside after : List Char) (hbefore : ¬ Holds "<svg".toList before) (htag : IsTag tag) :
    fillOf? (documentOf before tag inside after) = attr? "fill".toList inQuotes? tag := by
  rw [fillOf?, findTag?_documentOf inside after hbefore htag, Option.bind_some]

/-- A symbol holds all that is inside the root, in a group with the first of what is taken for a fill in the root's tag,
and has the view box of that tag. What is taken for a fill is the value of a fill attribute, if the value has no
quotation marks in it and nothing before it looks like the start of a fill. -/
theorem symbols_hold_the_inside_of_the_root (id inside : List Char) (hbefore : ¬ Holds "<svg".toList before)
    (htag : IsTag tag) (hafter : ¬ Holds "</svg>".toList after) :
    ∃ body viewBox, viewBox = viewBoxOf ("<svg".toList ++ tag ++ ['>']) ∧
      ofSvg (documentOf before tag inside after) id = ⟨id, elementOf id viewBox body, viewBox⟩ ∧
      ((∀ front rest fill, tag = front ++ rest → ¬ FillAt rest fill) ∧ body = trim inside ∨
        ∃ fill, FirstFill tag fill ∧ body = groupOf fill (trim inside)) ∧
      ∀ (fill : FillAttr) front back, tag = front ++ fill.text ++ back → (∀ c ∈ fill.value, isQuote c = false) →
        (∀ opening, IsOpening opening → ¬ opening <:+: front) → body = groupOf fill.value (trim inside) := by
  have hviewBox := viewBoxOf_documentOf inside after hbefore htag
  have hinner := innerOf_documentOf inside hbefore htag hafter
  have hfill := fillOf?_documentOf inside after hbefore htag
  have hattr (fill : FillAttr) (front back : List Char) (hcut : tag = front ++ fill.text ++ back)
      (hplain : ∀ c ∈ fill.value, isQuote c = false) (hfront : ∀ opening, IsOpening opening → ¬ opening <:+: front) :
      attr? "fill".toList inQuotes? tag = some fill.value := by
    rw [hcut]
    exact firstFill_iff.mpr (fill.firstFill hplain hfront)
  cases hfound : attr? "fill".toList inQuotes? tag with
  | none =>
    have hnone (front rest fill : List Char) (hcut : tag = front ++ rest) : ¬ FillAt rest fill := by
      rw [← attrAt?_eq_some, attr?_eq_none hfound hcut]
      nofun
    refine ⟨trim inside, _, rfl, ?_, Or.inl ⟨hnone, rfl⟩, ?_⟩
    · rw [ofSvg, hfill, hfound, hinner, hviewBox]
      rfl
    · intro fill front back hcut hplain hfront
      have hsome := hattr fill front back hcut hplain hfront
      rw [hfound] at hsome
      cases hsome
  | some found =>
    refine ⟨groupOf found (trim inside), _, rfl, ?_, Or.inr ⟨found, firstFill_iff.mp hfound, rfl⟩, ?_⟩
    · rw [ofSvg, hfill, hfound, hinner, hviewBox]
      rfl
    · intro fill front back hcut hplain hfront
      have hsome := hattr fill front back hcut hplain hfront
      rw [hfound] at hsome
      rw [Option.some.inj hsome]

def whiteFill : FillAttr where
  opening := " fill=".toList
  gap := []
  quote := '"'
  value := "#fff".toList
  isOpening := ⟨' ', [], rfl, rfl, List.forall_mem_nil _⟩
  blanks := List.forall_mem_nil _
  isQuote := rfl
  closed := by decide
  given := by decide

/-- A fill that refers to a gradient, in quotes inside the address. -/
def gradientFill : FillAttr :=
  { whiteFill with value := "url('#a')".toList, closed := by decide, given := by decide }

def viewedTag : List Char := whiteFill.text ++ " viewBox=\"0 0 24 24\"".toList

def prolog : List Char := "<?xml version=\"1.0\"?>\n".toList

/-- An svg element and a closing tag, over several lines. -/
def nested : List Char := "\n<svg viewBox=\"0 0 8 8\">\n<path/></SVG>\n</svg>\n".toList

theorem nested_icon_is_taken_whole :
    (¬ Holds "<svg".toList prolog ∧ IsTag viewedTag ∧ ¬ Holds "</svg>".toList "<!-- end -->".toList) ∧
      ofSvg (documentOf prolog viewedTag nested "<!-- end -->".toList) "i".toList =
        ⟨"i".toList, elementOf "i".toList "0 0 24 24".toList (groupOf "#fff".toList (trim nested)),
          "0 0 24 24".toList⟩ := by
  have hbefore : ¬ Holds "<svg".toList prolog := by decide +kernel
  have htag : IsTag viewedTag := ⟨Or.inr ⟨' ', _, rfl, rfl⟩, by decide +kernel⟩
  have hafter : ¬ Holds "</svg>".toList "<!-- end -->".toList := by decide +kernel
  refine ⟨⟨hbefore, htag, hafter⟩, ?_⟩
  obtain ⟨body, viewBox, hviewBox, hsymbol, -, hfill⟩ :=
    symbols_hold_the_inside_of_the_root "i".toList nested hbefore htag hafter
  have hbody : body = groupOf "#fff".toList (trim nested) := by
    refine hfill whiteFill [] " viewBox=\"0 0 24 24\"".toList rfl (by simp [whiteFill, isQuote]) fun opening hopening hinfix => ?_
    obtain ⟨lead, gap, rfl, -⟩ := hopening
    cases List.infix_nil.mp hinfix
  have hread : viewBoxOf ("<svg".toList ++ viewedTag ++ ['>']) = "0 0 24 24".toList := by decide +kernel
  rw [hsymbol, hviewBox, hread, hbody]

/-- A value with quotation marks of the other kind is cut off at the first of them. -/
theorem quotation_in_fill_is_cut_off :
    (ofSvg (documentOf [] gradientFill.text "<path/>".toList []) "i".toList).content =
        elementOf "i".toList defaultViewBox (groupOf "url(".toList "<path/>".toList) ∧
      (ofSvg (documentOf [] gradientFill.text "<path/>".toList []) "i".toList).content ≠
        elementOf "i".toList defaultViewBox (groupOf gradientFill.value "<path/>".toList) := by
  decide +kernel

end NodeLink.Symbol
