import NodeLink.Svg.Markup
import Mathlib.Data.List.Basic

/-!
# Escaped text

What is written with entities holds none of the characters that markup gives a meaning, and stands for the
text it was written from.
-/

namespace NodeLink

/-- The entities that stand for special characters. -/
def entities : List (List Char) := ["&amp;", "&lt;", "&gt;", "&quot;", "&#39;"].map String.toList

/-- No angle bracket opens and no quote stands in the text as it is, and every ampersand begins an entity. -/
def Escaped : List Char → Prop
  | [] => True
  | c :: cs => c ≠ '<' ∧ c ≠ '"' ∧ (c = '&' → ∃ e ∈ entities, e <+: c :: cs) ∧ Escaped cs

/-- The text that a written one stands for. -/
def decode : List Char → List Char
  | '&' :: 'a' :: 'm' :: 'p' :: ';' :: cs => '&' :: decode cs
  | '&' :: 'l' :: 't' :: ';' :: cs => '<' :: decode cs
  | '&' :: 'g' :: 't' :: ';' :: cs => '>' :: decode cs
  | '&' :: 'q' :: 'u' :: 'o' :: 't' :: ';' :: cs => '"' :: decode cs
  | '&' :: '#' :: '3' :: '9' :: ';' :: cs => '\'' :: decode cs
  | c :: cs => c :: decode cs
  | [] => []

/-- The entity of a special character, any other character itself. -/
def escapeChar (c : Char) : List Char :=
  if c = '&' then "&amp;".toList
  else if c = '<' then "&lt;".toList
  else if c = '>' then "&gt;".toList
  else if c = '"' then "&quot;".toList
  else if c = '\'' then "&#39;".toList
  else [c]

theorem Text.replaceAll_single (c : Char) (new cs : List Char) :
    replaceAll [c] new cs = cs.flatMap fun d => if d = c then new else [d] := by
  induction cs with
  | nil => rfl
  | cons d cs ih =>
    change (if startsWith [c] (d :: cs) then new ++ replaceAll [c] new cs else d :: replaceAll [c] new cs) = _
    rw [ih, List.flatMap_cons]
    by_cases h : d = c
    · subst d
      rw [if_pos rfl, if_pos (by simp [startsWith, afterLead?])]
    · rw [if_neg h, if_neg (by simp [startsWith, afterLead?, Ne.symm h])]
      rfl

/-- Replacements of single characters, one after the other, work on each character by itself. -/
theorem replaceEach_eq_flatMap (pairs : List (Char × String)) (cs : List Char) :
    pairs.foldl (fun cs pair => Text.replaceAll [pair.1] pair.2.toList cs) cs =
      cs.flatMap fun c => pairs.foldl (fun cs pair => Text.replaceAll [pair.1] pair.2.toList cs) [c] := by
  induction pairs generalizing cs with
  | nil => exact (List.flatMap_singleton' cs).symm
  | cons pair pairs ih =>
    simp only [List.foldl_cons]
    rw [ih, Text.replaceAll_single, List.flatMap_assoc]
    refine List.flatMap_congr fun c _ => ?_
    rw [ih (Text.replaceAll [pair.1] pair.2.toList [c]), Text.replaceAll_single, List.flatMap_singleton]

/-- No replacement touches an entity that an earlier one has put in. -/
theorem escapeXml_single (c : Char) : escapeXml [c] = escapeChar c := by
  by_cases hamp : c = '&'
  · subst c
    rfl
  by_cases hlt : c = '<'
  · subst c
    rfl
  by_cases hgt : c = '>'
  · subst c
    rfl
  by_cases hquote : c = '"'
  · subst c
    rfl
  by_cases hsingle : c = '\''
  · subst c
    rfl
  have hkeep (d : Char) (new : List Char) (h : c ≠ d) : Text.replaceAll [d] new [c] = [c] := by
    rw [Text.replaceAll_single, List.flatMap_singleton, if_neg h]
  rw [escapeChar, if_neg hamp, if_neg hlt, if_neg hgt, if_neg hquote, if_neg hsingle]
  simp only [escapeXml, specials, List.foldl_cons, List.foldl_nil]
  rw [hkeep _ _ hamp, hkeep _ _ hlt, hkeep _ _ hgt, hkeep _ _ hquote, hkeep _ _ hsingle]

theorem escapeXml_eq_flatMap (cs : List Char) : escapeXml cs = cs.flatMap escapeChar := by
  rw [escapeXml, replaceEach_eq_flatMap]
  exact List.flatMap_congr fun c _ => escapeXml_single c

theorem Escaped.append {as bs : List Char} (ha : Escaped as) (hb : Escaped bs) : Escaped (as ++ bs) := by
  induction as with
  | nil => exact hb
  | cons c cs ih =>
    obtain ⟨hlt, hquote, hamp, hcs⟩ := ha
    refine ⟨hlt, hquote, fun hc => ?_, ih hcs⟩
    obtain ⟨e, he, hpre⟩ := hamp hc
    exact ⟨e, he, hpre.trans (List.prefix_append (c :: cs) bs)⟩

/-- What ends a value or a run of text is not part of it. -/
theorem Escaped.ne {cs : List Char} (h : Escaped cs) : ∀ c ∈ cs, c ≠ '<' ∧ c ≠ '"' := by
  induction cs with
  | nil => nofun
  | cons c cs ih =>
    obtain ⟨hlt, hquote, -, hcs⟩ := h
    exact List.forall_mem_cons.mpr ⟨⟨hlt, hquote⟩, ih hcs⟩

theorem escaped_escapeChar (c : Char) : Escaped (escapeChar c) := by
  unfold escapeChar
  split_ifs <;> simp_all [Escaped, entities]

theorem decode_cons {c : Char} (h : c ≠ '&') (cs : List Char) : decode (c :: cs) = c :: decode cs := by
  rw [decode] <;> simp [h]

theorem decode_escapeChar (c : Char) (cs : List Char) : decode (escapeChar c ++ cs) = c :: decode cs := by
  unfold escapeChar
  split_ifs with hamp hlt hgt hquote hsingle
  · subst hamp
    rfl
  · subst hlt
    rfl
  · subst hgt
    rfl
  · subst hquote
    rfl
  · subst hsingle
    rfl
  · exact decode_cons hamp cs

theorem escapeXml_cons (c : Char) (cs : List Char) : escapeXml (c :: cs) = escapeChar c ++ escapeXml cs := by
  rw [escapeXml_eq_flatMap, escapeXml_eq_flatMap, List.flatMap_cons]

theorem escaped_escapeXml (cs : List Char) : Escaped (escapeXml cs) := by
  induction cs with
  | nil => trivial
  | cons c cs ih =>
    rw [escapeXml_cons]
    exact (escaped_escapeChar c).append ih

theorem decode_escapeXml (cs : List Char) : decode (escapeXml cs) = cs := by
  induction cs with
  | nil => rfl
  | cons c cs ih => rw [escapeXml_cons, decode_escapeChar, ih]

/-! ### What escaping keeps -/

theorem escapeChar_cases (c : Char) :
    escapeChar c ∈ entities ∨ escapeChar c = [c] ∧ c ≠ '<' ∧ c ≠ '>' ∧ c ≠ '"' ∧ c ≠ '\'' := by
  unfold escapeChar
  split_ifs <;> simp_all [entities]

theorem not_special_of_mem_escapeXml {c : Char} {cs : List Char} (h : c ∈ escapeXml cs) :
    c ≠ '<' ∧ c ≠ '>' ∧ c ≠ '"' ∧ c ≠ '\'' := by
  rw [escapeXml_eq_flatMap] at h
  obtain ⟨d, -, hc⟩ := List.mem_flatMap.mp h
  have hentities : ∀ e ∈ entities, ∀ c ∈ e, c ≠ '<' ∧ c ≠ '>' ∧ c ≠ '"' ∧ c ≠ '\'' := by
    simp [entities]
  rcases escapeChar_cases d with hentity | ⟨hsame, hnone⟩
  · exact hentities _ hentity c hc
  · rw [hsame] at hc
    obtain rfl := List.mem_singleton.mp hc
    exact hnone

theorem Escaped.entity {cs tail : List Char} (h : Escaped cs) (hs : '&' :: tail <:+ cs) :
    ∃ e ∈ entities, e <+: '&' :: tail := by
  induction cs with
  | nil => cases List.suffix_nil.mp hs
  | cons c cs ih =>
    obtain ⟨-, -, hamp, hcs⟩ := h
    rcases List.suffix_cons_iff.mp hs with heq | hs
    · obtain ⟨rfl, rfl⟩ := List.cons.inj heq
      exact hamp rfl
    · exact ih hcs hs

theorem escapeXml_injective : Function.Injective escapeXml :=
  Function.LeftInverse.injective decode_escapeXml

theorem escapeXml_append (cs ds : List Char) : escapeXml (cs ++ ds) = escapeXml cs ++ escapeXml ds := by
  simp only [escapeXml_eq_flatMap, List.flatMap_append]

/-- The replacements make of each character what it becomes by itself. What is written has no special character
but ampersands that begin entities, and reading these once from left to right gives the text back. -/
theorem escaping_loses_nothing (cs : List Char) :
    escapeXml cs = cs.flatMap escapeChar ∧
      (∀ c ∈ escapeXml cs, c ≠ '<' ∧ c ≠ '>' ∧ c ≠ '"' ∧ c ≠ '\'') ∧
      (∀ tail, '&' :: tail <:+ escapeXml cs → ∃ e ∈ entities, e <+: '&' :: tail) ∧
      decode (escapeXml cs) = cs ∧
      (∀ ds, escapeXml cs = escapeXml ds → cs = ds) ∧
      ∀ ds, escapeXml (cs ++ ds) = escapeXml cs ++ escapeXml ds := by
  refine ⟨escapeXml_eq_flatMap cs, ?_, ?_, decode_escapeXml cs, ?_, escapeXml_append cs⟩
  · intro c hc
    exact not_special_of_mem_escapeXml hc
  · intro tail hs
    exact (escaped_escapeXml cs).entity hs
  · intro ds h
    exact escapeXml_injective h

/-- A text that has an entity already is not taken for what the entity stands for. -/
theorem entity_is_escaped_again :
    escapeXml "&lt;".toList = "&amp;lt;".toList ∧ decode "&amp;lt;".toList = "&lt;".toList ∧
      (∃ e ∈ entities, e <+: "&amp;lt;".toList) ∧ escapeXml "<".toList ≠ "&amp;lt;".toList := by
  have hwritten : escapeXml "&lt;".toList = "&amp;lt;".toList := rfl
  obtain ⟨-, hmarks, hentity, hback, hdiffers, -⟩ := escaping_loses_nothing "&lt;".toList
  rw [hwritten] at hentity hback hdiffers
  refine ⟨hwritten, hback, hentity _ List.suffix_rfl, ?_⟩
  intro h
  exact absurd (hdiffers _ h.symm) (by decide)

/-- A visible character or a space that needs neither an entity nor a backslash in front. -/
def isPlain (c : Char) : Bool := ' ' ≤ c && c ≤ '~' && c ≠ '&' && c ≠ '<' && c ≠ '"' && c ≠ '\\'

/-- A text that can be written as it is. -/
def Plain (cs : List Char) : Prop := ∀ c ∈ cs, isPlain c = true

instance (cs : List Char) : Decidable (Plain cs) := decidable_of_iff (cs.all isPlain = true) List.all_eq_true

/-- A text that is spelled out. Deciding it on the characters spares a detour over the bytes of the string. -/
theorem Plain.ofList {cs : List Char} (h : Plain cs) : Plain (String.ofList cs).toList := by
  rwa [String.toList_ofList]

theorem Plain.escaped {cs : List Char} (h : Plain cs) : Escaped cs := by
  induction cs with
  | nil => trivial
  | cons c cs ih =>
    obtain ⟨hc, hcs⟩ := List.forall_mem_cons.mp h
    simp only [isPlain, ne_eq, decide_not, Bool.and_eq_true, Bool.not_eq_true', decide_eq_false_iff_not] at hc
    obtain ⟨⟨⟨⟨-, hamp⟩, hlt⟩, hquote⟩, -⟩ := hc
    exact ⟨hlt, hquote, fun h => absurd h hamp, ih hcs⟩

@[simp] theorem plain_nil : Plain [] := nofun

@[simp] theorem plain_cons {c : Char} {cs : List Char} : Plain (c :: cs) ↔ isPlain c = true ∧ Plain cs :=
  List.forall_mem_cons

@[simp] theorem plain_append {as bs : List Char} : Plain (as ++ bs) ↔ Plain as ∧ Plain bs :=
  List.forall_mem_append

theorem Plain.sublist {as bs : List Char} (h : Plain bs) (hs : as.Sublist bs) : Plain as :=
  fun c hc => h c (hs.subset hc)

end NodeLink
