import NodeLink.Proofs.Text.Cutting
import NodeLink.Source.Connector
import Mathlib.Data.List.TakeWhile
import Mathlib.Data.List.Chain

/-!
# Where connectors are found

A form finds only connectors that are there, and what it finds makes up the text. Behind a left end
without dashes and angle brackets it finds the connector in front of the rest, with all of its weight.
-/

namespace NodeLink.Source

open NodeLink.Text

structure Weight where
  digits : List Char
  ne_nil : digits ≠ []
  all_digits : ∀ c ∈ digits, isDigit c = true

/-- The connectors, each with or without a weight. A long arrow has a second dash in front. -/
inductive Connector where
  | both (weight : Option Weight)
  | forward (long : Bool) (weight : Option Weight)
  | backward (weight : Option Weight)
  | dashes (weight : Option Weight)
  | single (weight : Weight)

namespace Connector

def form : Connector → Form
  | both _ => .both
  | forward _ _ => .forward
  | backward _ => .backward
  | dashes _ => .dashes
  | single _ => .single

def weight? : Connector → Option Weight
  | both w => w
  | forward _ w => w
  | backward w => w
  | dashes w => w
  | single w => some w

def text : Connector → List Char
  | both none => ['<', '-', '>']
  | both (some w) => ['<', '-'] ++ w.digits ++ ['-', '>']
  | forward false none => ['-', '>']
  | forward true none => ['-', '-', '>']
  | forward false (some w) => ['-'] ++ w.digits ++ ['-', '>']
  | forward true (some w) => ['-', '-'] ++ w.digits ++ ['-', '>']
  | backward none => ['<', '-']
  | backward (some w) => ['<', '-'] ++ w.digits ++ ['-']
  | dashes none => ['-', '-']
  | dashes (some w) => ['-'] ++ w.digits ++ ['-', '-']
  | single w => ['-'] ++ w.digits ++ ['-']

/-- The digits of the weight, if there is one. -/
def digits (c : Connector) : List Char := (c.weight?.map Weight.digits).getD []

end Connector

variable {lead back mark cs digits rest left right : List Char} {form : Form}

namespace Form

theorem weighted?_eq (h : weighted? lead back cs = some (digits, rest)) :
    ∃ w : Weight, w.digits = digits ∧ cs = lead ++ w.digits ++ back ++ rest := by
  unfold weighted? at h
  obtain ⟨tail, ht, h⟩ := Option.bind_eq_some_iff.mp h
  dsimp only at h
  split at h
  · cases h
  · rename_i hd
    obtain ⟨last, hl, h⟩ := Option.bind_eq_some_iff.mp h
    cases h
    refine ⟨⟨tail.takeWhile isDigit, by simpa using hd, fun c => List.mem_takeWhile_imp⟩, rfl, ?_⟩
    rw [afterLead?_eq_some.mp ht, List.append_assoc, List.append_assoc,
      ← afterLead?_eq_some.mp hl, List.takeWhile_append_dropWhile]

theorem plain?_eq (h : plain? mark cs = some (digits, rest)) : digits = [] ∧ cs = mark ++ rest := by
  obtain ⟨tail, ht, he⟩ := Option.map_eq_some_iff.mp h
  cases he
  exact ⟨rfl, afterLead?_eq_some.mp ht⟩

/-- A connector of the form stands at the front of the text and leaves the rest. -/
def Front (form : Form) (cs digits rest : List Char) : Prop :=
  ∃ c : Connector, c.form = form ∧ c.digits = digits ∧ cs = c.text ++ rest

theorem front_of_weighted (make : Weight → Connector) (hf : ∀ w, (make w).form = form)
    (hd : ∀ w, (make w).digits = w.digits) (ht : ∀ w, (make w).text = lead ++ w.digits ++ back)
    (h : some (digits, rest) = weighted? lead back cs) : form.Front cs digits rest := by
  obtain ⟨w, rfl, rfl⟩ := weighted?_eq h.symm
  exact ⟨make w, hf w, hd w, by rw [ht]⟩

theorem front_of_plain {c : Connector} (hf : c.form = form) (hd : c.digits = [])
    (h : some (digits, rest) = plain? c.text cs) : form.Front cs digits rest := by
  obtain ⟨rfl, rfl⟩ := plain?_eq h.symm
  exact ⟨c, hf, hd, rfl⟩

theorem front_of_mem_readings (h : (digits, rest) ∈ form.readings cs) : form.Front cs digits rest := by
  cases form <;> simp only [readings, List.mem_filterMap, List.mem_cons, List.not_mem_nil, or_false,
    id, exists_eq_right] at h
  case both =>
    rcases h with h | h
    · exact front_of_weighted (fun w => .both (some w)) (fun _ => rfl) (fun _ => rfl)
        (fun _ => rfl) h
    · exact front_of_plain (c := .both none) rfl rfl h
  case forward =>
    rcases h with h | h | h | h
    · exact front_of_weighted (fun w => .forward true (some w)) (fun _ => rfl) (fun _ => rfl)
        (fun _ => rfl) h
    · exact front_of_plain (c := .forward true none) rfl rfl h
    · exact front_of_weighted (fun w => .forward false (some w)) (fun _ => rfl) (fun _ => rfl)
        (fun _ => rfl) h
    · exact front_of_plain (c := .forward false none) rfl rfl h
  case backward =>
    rcases h with h | h
    · exact front_of_weighted (fun w => .backward (some w)) (fun _ => rfl) (fun _ => rfl)
        (fun _ => rfl) h
    · exact front_of_plain (c := .backward none) rfl rfl h
  case dashes =>
    rcases h with h | h
    · exact front_of_weighted (fun w => .dashes (some w)) (fun _ => rfl) (fun _ => rfl)
        (fun _ => rfl) h
    · exact front_of_plain (c := .dashes none) rfl rfl h
  case single =>
    exact front_of_weighted .single (fun _ => rfl) (fun _ => rfl) (fun _ => rfl) h

theorem atFront?_eq (h : form.atFront? cs = some (digits, right)) :
    ∃ (c : Connector) (tail : List Char), c.form = form ∧ c.digits = digits ∧ cs = c.text ++ tail ∧
      rightEnd? tail = some right := by
  obtain ⟨⟨d, tail⟩, hm, hr⟩ := List.exists_of_findSome?_eq_some h
  obtain ⟨r, hr, he⟩ := Option.map_eq_some_iff.mp hr
  cases he
  obtain ⟨c, hf, hd, rfl⟩ := front_of_mem_readings hm
  exact ⟨c, tail, hf, hd, rfl, hr⟩

/-- A form finds one of its connectors behind a left end that is not empty. -/
theorem find?_eq (h : form.find? cs = some (left, digits, right)) :
    ∃ (c : Connector) (tail : List Char), c.form = form ∧ c.digits = digits ∧ left ≠ [] ∧
      cs = left ++ c.text ++ tail ∧ rightEnd? tail = some right := by
  induction cs generalizing left with
  | nil => cases h
  | cons a cs ih =>
    unfold find? at h
    split at h
    · cases h
    · split at h
      · rename_i weight r hr
        cases h
        obtain ⟨c, tail, hf, hd, rfl, hr'⟩ := atFront?_eq hr
        exact ⟨c, tail, hf, hd, by simp, rfl, hr'⟩
      · obtain ⟨⟨l, found⟩, hfound, he⟩ := Option.map_eq_some_iff.mp h
        cases he
        obtain ⟨c, tail, hf, hd, -, rfl, hr⟩ := ih hfound
        exact ⟨c, tail, hf, hd, by simp, rfl, hr⟩

end Form

theorem Weight.exists_cons (w : Weight) : ∃ d ds, w.digits = d :: ds ∧ isDigit d = true := by
  obtain ⟨ds, ne, all⟩ := w
  cases ds with
  | nil => exact absurd rfl ne
  | cons d ds => exact ⟨d, ds, rfl, all d (by simp)⟩

theorem Weight.not_mem (w : Weight) {c : Char} (hc : isDigit c = false) : c ∉ w.digits :=
  fun hm => ne_of_test (w.all_digits c hm) hc rfl

namespace Connector

/-- Every connector begins with a dash or an angle bracket. -/
theorem text_cons (c : Connector) : ∃ a rest, c.text = a :: rest ∧ (a = '-' ∨ a = '<') := by
  cases c with
  | both w => cases w <;> exact ⟨'<', _, rfl, Or.inr rfl⟩
  | forward long w => cases long <;> cases w <;> exact ⟨'-', _, rfl, Or.inl rfl⟩
  | backward w => cases w <;> exact ⟨'<', _, rfl, Or.inr rfl⟩
  | dashes w => cases w <;> exact ⟨'-', _, rfl, Or.inl rfl⟩
  | single w => exact ⟨'-', _, rfl, Or.inl rfl⟩

theorem mark_subset {c : Connector} (hm : c.form.mark? = some mark) : mark ⊆ c.text := by
  cases c with
  | both w => cases hm; cases w <;> simp [text]
  | forward long w => cases hm; cases long <;> cases w <;> simp [text]
  | backward w => cases hm; cases w <;> simp [text]
  | dashes w => cases hm; cases w <;> simp [text]
  | single w => cases hm

theorem not_mem_text {c : Connector} {a : Char} (ha : isDigit a = false) (hm : a ∉ ['-', '<', '>']) :
    a ∉ c.text := by
  have hw (w : Weight) : a ∉ w.digits := w.not_mem ha
  simp only [List.mem_cons, List.not_mem_nil, or_false, not_or] at hm
  cases c with
  | both w => cases w <;> simp [text, hw, hm]
  | forward long w => cases long <;> cases w <;> simp [text, hw, hm]
  | backward w => cases w <;> simp [text, hw, hm]
  | dashes w => cases w <;> simp [text, hw, hm]
  | single w => simp [text, hw, hm]

theorem less_mem_text {c : Connector} (h : '<' ∈ c.text) : c.form = .both ∨ c.form = .backward := by
  have hw (w : Weight) : '<' ∉ w.digits := w.not_mem (by decide)
  cases c with
  | both w => exact Or.inl rfl
  | forward long w => cases long <;> cases w <;> simp [text, hw] at h
  | backward w => exact Or.inr rfl
  | dashes w => cases w <;> simp [text, hw] at h
  | single w => simp [text, hw] at h

theorem greater_mem_text {c : Connector} (h : '>' ∈ c.text) : c.form = .both ∨ c.form = .forward := by
  have hw (w : Weight) : '>' ∉ w.digits := w.not_mem (by decide)
  cases c with
  | both w => exact Or.inl rfl
  | forward long w => exact Or.inr rfl
  | backward w => cases w <;> simp [text, hw] at h
  | dashes w => cases w <;> simp [text, hw] at h
  | single w => simp [text, hw] at h

end Connector

namespace Form

theorem weighted?_append (lead back rest : List Char) (w : Weight) {c : Char} (hc : isDigit c = false) :
    weighted? lead (c :: back) (lead ++ w.digits ++ c :: back ++ rest) = some (w.digits, rest) := by
  have htake : (w.digits ++ (c :: back ++ rest)).takeWhile isDigit = w.digits := by
    rw [List.takeWhile_append_of_pos w.all_digits]
    simp [hc]
  have hdrop : (w.digits ++ (c :: back ++ rest)).dropWhile isDigit = c :: back ++ rest := by
    rw [List.dropWhile_append_of_pos w.all_digits]
    simp [hc]
  rw [List.append_assoc, List.append_assoc, weighted?, afterLead?_append, Option.bind_eq_bind,
    Option.bind_some]
  simp only [htake, hdrop]
  rw [if_neg (by simpa using w.ne_nil), afterLead?_append]
  rfl

theorem weighted?_none (lead : List Char) {c : Char} (hc : isDigit c = false) :
    weighted? lead back (lead ++ c :: rest) = none := by
  rw [Option.eq_none_iff_forall_ne_some]
  rintro ⟨digits, last⟩ h
  obtain ⟨w, -, he⟩ := weighted?_eq h
  obtain ⟨d, ds, hw, hd⟩ := w.exists_cons
  rw [List.append_assoc, List.append_assoc, List.append_cancel_left_eq, hw] at he
  cases he
  exact ne_of_test hd hc rfl

theorem weighted?_none_of_not_mem {c : Char} (hc : c ∈ back) (h : c ∉ rest) :
    weighted? lead back (lead ++ rest) = none := by
  rw [Option.eq_none_iff_forall_ne_some]
  rintro ⟨digits, last⟩ hw
  obtain ⟨w, -, he⟩ := weighted?_eq hw
  rw [List.append_assoc, List.append_assoc, List.append_cancel_left_eq] at he
  exact h (by rw [he]; simp [hc])

theorem weighted?_none_of_weight (w : Weight) :
    weighted? ['-', '-'] back ('-' :: w.digits ++ rest) = none := by
  obtain ⟨d, ds, hw, hd⟩ := w.exists_cons
  have hne := (ne_of_test hd (show isDigit '-' = false by decide)).symm
  simp [weighted?, hw, afterLead?, hne]

theorem plain?_none_of_weight (w : Weight) :
    plain? ('-' :: '-' :: mark) ('-' :: w.digits ++ rest) = none := by
  obtain ⟨d, ds, hw, hd⟩ := w.exists_cons
  have hne := (ne_of_test hd (show isDigit '-' = false by decide)).symm
  simp [plain?, hw, afterLead?, hne]

/-- The longest reading of a connector is the connector itself, with all of its weight. -/
theorem head?_readings (c : Connector) (h : '-' ∉ right) :
    (c.form.readings (c.text ++ right)).head? = some (c.digits, right) := by
  -- a form tries its readings in turn: those before the right one miss their digits or their last mark
  have hdash : isDigit '-' = false := by decide
  have hangle : isDigit '>' = false := by decide
  cases c with
  | both w =>
    cases w with
    | none =>
      have hw : weighted? ['<', '-'] ['-', '>'] (['<', '-', '>'] ++ right) = none :=
        weighted?_none ['<', '-'] hangle
      have hp : plain? ['<', '-', '>'] (['<', '-', '>'] ++ right) = some ([], right) := rfl
      simp only [Connector.form, Connector.text, readings, hw, hp]
      rfl
    | some w =>
      have hw := weighted?_append ['<', '-'] ['>'] right w hdash
      simp only [Connector.form, Connector.text, readings, hw]
      rfl
  | forward long w =>
    cases w with
    | none =>
      cases long with
      | false =>
        have hl : weighted? ['-', '-'] ['-', '>'] (['-', '>'] ++ right) = none := rfl
        have hw : weighted? ['-'] ['-', '>'] (['-', '>'] ++ right) = none :=
          weighted?_none ['-'] hangle
        simp only [Connector.form, Connector.text, readings, hl, hw]
        rfl
      | true =>
        have hl : weighted? ['-', '-'] ['-', '>'] (['-', '-', '>'] ++ right) = none :=
          weighted?_none ['-', '-'] hangle
        simp only [Connector.form, Connector.text, readings, hl]
        rfl
    | some w =>
      cases long with
      | false =>
        have hl : weighted? ['-', '-'] ['-', '>'] (['-'] ++ w.digits ++ ['-', '>'] ++ right) = none := by
          rw [List.append_assoc]
          exact weighted?_none_of_weight w
        have hp : plain? ['-', '-', '>'] (['-'] ++ w.digits ++ ['-', '>'] ++ right) = none := by
          rw [List.append_assoc]
          exact plain?_none_of_weight w
        have hw := weighted?_append ['-'] ['>'] right w hdash
        simp only [Connector.form, Connector.text, readings, hl, hp, hw]
        rfl
      | true =>
        have hw := weighted?_append ['-', '-'] ['>'] right w hdash
        simp only [Connector.form, Connector.text, readings, hw]
        rfl
  | backward w =>
    cases w with
    | none =>
      have hw : weighted? ['<', '-'] ['-'] (['<', '-'] ++ right) = none :=
        weighted?_none_of_not_mem (c := '-') (by simp) h
      simp only [Connector.form, Connector.text, readings, hw]
      rfl
    | some w =>
      have hw := weighted?_append ['<', '-'] [] right w hdash
      simp only [Connector.form, Connector.text, readings, hw]
      rfl
  | dashes w =>
    cases w with
    | none =>
      have hw : weighted? ['-'] ['-', '-'] (['-', '-'] ++ right) = none :=
        weighted?_none ['-'] hdash
      simp only [Connector.form, Connector.text, readings, hw]
      rfl
    | some w =>
      have hw := weighted?_append ['-'] ['-'] right w hdash
      simp only [Connector.form, Connector.text, readings, hw]
      rfl
  | single w =>
    have hw := weighted?_append ['-'] [] right w hdash
    simp only [Connector.form, Connector.text, readings, hw]
    rfl

theorem rightEnd?_self (ne : right ≠ []) (h : '\n' ∉ right) : rightEnd? right = some right := by
  have hall : ∀ c ∈ right, decide (c ≠ '\n') = true := by
    intro c hc
    exact decide_eq_true fun he => h (he ▸ hc)
  have htake : right.takeWhile (· ≠ '\n') = right := List.takeWhile_eq_self_iff.mpr hall
  have hdrop : right.dropWhile (· ≠ '\n') = [] := List.dropWhile_eq_nil_iff.mpr hall
  unfold rightEnd?
  simp only [htake, hdrop]
  simp [ne]

theorem atFront?_text (c : Connector) (ne : right ≠ []) (hd : '-' ∉ right) (hn : '\n' ∉ right) :
    c.form.atFront? (c.text ++ right) = some (c.digits, right) := by
  have hhead := head?_readings c hd
  unfold atFront?
  cases hr : c.form.readings (c.text ++ right) with
  | nil => simp [hr] at hhead
  | cons found others =>
    simp only [hr, List.head?_cons, Option.some.injEq] at hhead
    subst hhead
    simp [rightEnd?_self ne hn]

theorem atFront?_none {a : Char} (hd : a ≠ '-') (ha : a ≠ '<') : form.atFront? (a :: cs) = none := by
  rw [Option.eq_none_iff_forall_ne_some]
  rintro ⟨digits, right⟩ h
  obtain ⟨c, tail, -, -, he, -⟩ := atFront?_eq h
  obtain ⟨b, rest, ht, hb⟩ := c.text_cons
  rw [ht] at he
  cases he
  rcases hb with rfl | rfl
  · exact hd rfl
  · exact ha rfl

/-- The left end is not cut shorter, as no connector begins inside it. -/
theorem find?_text (c : Connector) (hleft : left ≠ [])
    (hplain : ∀ a ∈ left, a ≠ '-' ∧ a ≠ '<' ∧ a ≠ '\n')
    (ne : right ≠ []) (hd : '-' ∉ right) (hn : '\n' ∉ right) :
    c.form.find? (left ++ c.text ++ right) = some (left, c.digits, right) := by
  induction left with
  | nil => exact absurd rfl hleft
  | cons a left ih =>
    obtain ⟨-, -, ha⟩ := hplain a (by simp)
    rw [List.cons_append, List.cons_append, find?, if_neg ha]
    cases left with
    | nil => rw [List.nil_append, atFront?_text c ne hd hn]
    | cons b left =>
      -- No connector begins with the next character of the left end, so the search goes on behind it.
      obtain ⟨hb, hb', -⟩ := hplain b (by simp)
      have hnone : c.form.atFront? (b :: left ++ c.text ++ right) = none := atFront?_none hb hb'
      rw [hnone, ih (by simp) fun x hx => hplain x (List.mem_cons_of_mem a hx)]
      rfl

theorem split?_eq (h : form.split? cs = some (left, digits, right)) :
    form.find? cs = some (left, digits, right) ∨
      ∃ mark, form.mark? = some mark ∧ cs = left ++ mark ++ right := by
  unfold split? at h
  split at h
  · rename_i found hf
    exact Or.inl (hf.trans h)
  · obtain ⟨mark, hm, h⟩ := Option.bind_eq_some_iff.mp h
    obtain ⟨⟨l, r⟩, hcut, he⟩ := Option.bind_eq_some_iff.mp h
    cases he
    exact Or.inr ⟨mark, hm, cutAt?_eq hcut⟩

/-- A form finds nothing in a text that lacks a character of its mark. -/
theorem split?_none {a : Char} (hm : form.mark? = some mark) (ha : a ∈ mark) (h : a ∉ cs) :
    form.split? cs = none := by
  rw [Option.eq_none_iff_forall_ne_some]
  rintro ⟨l, digits, r⟩ hs
  rcases split?_eq hs with hf | ⟨m, hm', rfl⟩
  · obtain ⟨c, tail, rfl, -, -, rfl, -⟩ := find?_eq hf
    exact h (by simp [Connector.mark_subset hm ha])
  · rw [hm] at hm'
    cases hm'
    exact h (by simp [ha])

/-- No two dashes in a row. -/
def Apart (a b : Char) : Prop := a = '-' → b ≠ '-'

theorem isChain_append (h : '-' ∉ left) (hc : cs.IsChain Apart) : (left ++ cs).IsChain Apart := by
  induction left with
  | nil => exact hc
  | cons a left ih =>
    refine (ih fun hm => h (List.mem_cons_of_mem a hm)).cons fun b _ ha => ?_
    exact absurd ha fun he => h (by simp [he])

theorem isChain_dash (h : '-' ∉ right) (ne : right ≠ []) (hc : cs.IsChain Apart) :
    ('-' :: (right ++ cs)).IsChain Apart := by
  refine (isChain_append h hc).cons fun b hb _ he => ?_
  rw [List.head?_append_of_ne_nil _ ne] at hb
  exact h (he ▸ List.mem_of_mem_head? hb)

theorem isChain_single (w : Weight) (hl : '-' ∉ left) (hr : '-' ∉ right) (ne : right ≠ []) :
    (left ++ (Connector.single w).text ++ right).IsChain Apart := by
  have hw : '-' ∉ w.digits := w.not_mem (by decide)
  have hback : ('-' :: (right ++ [])).IsChain Apart := isChain_dash hr ne List.isChain_nil
  have hfront : ('-' :: (w.digits ++ '-' :: (right ++ []))).IsChain Apart :=
    isChain_dash hw w.ne_nil hback
  have h := isChain_append hl hfront
  simpa [Connector.text] using h

theorem split?_dashes_none (h : cs.IsChain Apart) : dashes.split? cs = none := by
  have hpair {l r : List Char} (he : cs = l ++ ['-', '-'] ++ r) : False := by
    have hp : ['-', '-'].IsChain Apart := h.infix ⟨l, r, he.symm⟩
    exact List.isChain_pair.mp hp rfl rfl
  rw [Option.eq_none_iff_forall_ne_some]
  rintro ⟨l, digits, r⟩ hs
  rcases split?_eq hs with hf | ⟨m, hm, he⟩
  · obtain ⟨c, tail, hform, -, -, he, -⟩ := find?_eq hf
    cases c with
    | dashes w =>
      cases w with
      | none => exact hpair he
      | some w => exact hpair (l := l ++ '-' :: w.digits) (by simpa [Connector.text] using he)
    | both w => cases hform
    | forward long w => cases hform
    | backward w => cases hform
    | single w => cases hform
  · cases hm
    exact hpair he

/-- No other form is found before the form of the connector. -/
theorem split?_text (c : Connector) (hl : ∀ a ∈ ['-', '<', '>', '\n'], a ∉ left)
    (hr : ∀ a ∈ ['-', '<', '>', '\n'], a ∉ right) (hleft : left ≠ []) (hright : right ≠ []) :
    (all.findSome? fun form => (form.split? (left ++ c.text ++ right)).map (form, ·)) =
      some (c.form, left, c.digits, right) := by
  have hfound : c.form.split? (left ++ c.text ++ right) = some (left, c.digits, right) := by
    unfold split?
    rw [find?_text c hleft ?_ hright (hr '-' (by simp)) (hr '\n' (by simp))]
    intro a ha
    exact ⟨fun he => hl '-' (by simp) (he ▸ ha), fun he => hl '<' (by simp) (he ▸ ha),
      fun he => hl '\n' (by simp) (he ▸ ha)⟩
  have hless (h : ¬ (c.form = .both ∨ c.form = .backward)) : '<' ∉ left ++ c.text ++ right := by
    simp [mt Connector.less_mem_text h, hl '<' (by simp), hr '<' (by simp)]
  have hgreater (h : ¬ (c.form = .both ∨ c.form = .forward)) : '>' ∉ left ++ c.text ++ right := by
    simp [mt Connector.greater_mem_text h, hl '>' (by simp), hr '>' (by simp)]
  -- A form that comes first needs an angle bracket that the text does not have.
  have hboth (h : c.form ≠ .both) : both.split? (left ++ c.text ++ right) = none := by
    by_cases hb : c.form = .backward
    · exact split?_none (a := '>') rfl (by decide) (hgreater (by simp [hb]))
    · exact split?_none (a := '<') rfl (by decide) (hless (by simp [h, hb]))
  have hforward (h : ¬ (c.form = .both ∨ c.form = .forward)) :
      forward.split? (left ++ c.text ++ right) = none :=
    split?_none (a := '>') rfl (by decide) (hgreater h)
  have hbackward (h : ¬ (c.form = .both ∨ c.form = .backward)) :
      backward.split? (left ++ c.text ++ right) = none :=
    split?_none (a := '<') rfl (by decide) (hless h)
  cases c with
  | both w =>
    simp only [all, List.findSome?_cons, show both.split? _ = _ from hfound]
    rfl
  | forward long w =>
    simp only [all, List.findSome?_cons, hboth nofun, show forward.split? _ = _ from hfound]
    rfl
  | backward w =>
    simp only [all, List.findSome?_cons, hboth nofun, hforward nofun,
      show backward.split? _ = _ from hfound]
    rfl
  | dashes w =>
    simp only [all, List.findSome?_cons, hboth nofun, hforward nofun, hbackward nofun,
      show dashes.split? _ = _ from hfound]
    rfl
  | single w =>
    -- Two dashes belong to the text of this form, but the weight keeps them apart.
    have hdashes := split?_dashes_none (isChain_single w (hl '-' (by simp)) (hr '-' (by simp)) hright)
    simp only [all, List.findSome?_cons, hboth nofun, hforward nofun, hbackward nofun, hdashes,
      show single.split? _ = _ from hfound]
    rfl

end Form

/-- The weight that a connector gives an edge. -/
def Connector.weight (c : Connector) : Nat :=
  match c.weight? with
  | none => 1
  | some w => max (digitsValue w.digits) 1

theorem weightOf_digits {c : Connector} (h : c.digits.length ≤ digitLimit) :
    weightOf c.digits = .ok c.weight := by
  unfold Connector.digits at h ⊢
  unfold Connector.weight
  cases hw : c.weight? with
  | none => rfl
  | some w =>
    rw [hw] at h
    have hlen : w.digits.length ≤ digitLimit := h
    simp [weightOf, wholeOfDigits?, hlen, w.ne_nil]

/-- The ends of a link are what stands before and behind its connector. -/
theorem readLink_text (c : Connector) (hl : ∀ a ∈ ['-', '<', '>', '\n'], a ∉ left)
    (hr : ∀ a ∈ ['-', '<', '>', '\n'], a ∉ right) (hleft : left ≠ []) (hright : right ≠ [])
    (hlimit : c.digits.length ≤ digitLimit) :
    readLink (left ++ c.text ++ right) = .ok (some
      (if c.form.isReversed then ⟨trim right, trim left, c.weight, c.form.kind⟩
        else ⟨trim left, trim right, c.weight, c.form.kind⟩)) := by
  unfold readLink
  rw [Form.split?_text c hl hr hleft hright]
  simp only [Form.link, weightOf_digits hlimit, bind, Except.bind]
  split <;> rfl

end NodeLink.Source
