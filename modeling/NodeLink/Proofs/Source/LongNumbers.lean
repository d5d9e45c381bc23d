import NodeLink.Proofs.Source.Connectors
import NodeLink.Proofs.Source.Spacing

/-!
# Numbers that are too long

The only thing that can go wrong with a diagram text is a number of too many digits, which stand in a row
in the text. What a line is cut into are stretches of it, so a long number of a part is one of the text.
-/

namespace NodeLink.Source

open NodeLink.Text

/-- The fault is about digits in a row of the text that are too many. -/
def TooLong (text : List Char) (f : Fault) : Prop :=
  ∃ run, run <:+: text ∧ (∀ c ∈ run, isDigit c = true) ∧ digitLimit < run.length ∧
    f = .tooManyDigits run.length

variable {f : Fault} {cs part text : List Char}

theorem TooLong.mono (h : TooLong part f) (hpart : part <:+: text) : TooLong text f := by
  obtain ⟨run, hrun, hdigits, hlong, rfl⟩ := h
  exact ⟨run, hrun.trans hpart, hdigits, hlong, rfl⟩

/-! ### Stretches of a text -/

theorem trim_within (cs : List Char) : trim cs <:+: cs := by
  have hend (cs : List Char) : trimEnd cs <+: cs := by
    rw [trimEnd, ← List.reverse_suffix, List.reverse_reverse]
    exact List.dropWhile_suffix isBlank
  exact (hend _).isInfix.trans (List.dropWhile_suffix isBlank).isInfix

theorem words_within {word : List Char} (h : word ∈ words cs) : word <:+: cs := by
  have hsplit (cs : List Char) : (splitBlanks cs).1 <+: cs ∧ ∀ word ∈ (splitBlanks cs).2, word <:+: cs := by
    induction cs with
    | nil => exact ⟨List.prefix_rfl, nofun⟩
    | cons c cs ih =>
      obtain ⟨hfirst, hrest⟩ := ih
      have hlater : ∀ word ∈ (splitBlanks cs).2, word <:+: c :: cs := fun word hm =>
        (hrest word hm).trans (List.suffix_cons c cs).isInfix
      rw [splitBlanks]
      dsimp only
      split
      · refine ⟨List.nil_prefix, ?_⟩
        split
        · exact hlater
        · exact List.forall_mem_cons.mpr
            ⟨hfirst.isInfix.trans (List.suffix_cons c cs).isInfix, hlater⟩
      · exact ⟨(List.prefix_cons_inj c).mpr hfirst, hlater⟩
  obtain ⟨hfirst, hrest⟩ := hsplit cs
  rw [words] at h
  dsimp only at h
  split at h
  · exact hrest word h
  · rcases List.mem_cons.mp h with rfl | h
    · exact hfirst.isInfix
    · exact hrest word h

theorem statements_within {line : List Char} (h : line ∈ statements text) : line <:+: text := by
  rw [statements_eq_parts] at h
  obtain ⟨part, hpart, hline⟩ := List.mem_flatMap.mp h
  have htrim : line = trim part := List.mem_singleton.mp (List.mem_of_mem_filter hline)
  rw [htrim]
  exact (trim_within part).trans (splitAtEach_within hpart)

theorem Connector.digits_within (c : Connector) : c.digits <:+: c.text := by
  have hwithin (lead back : List Char) (w : Weight) : w.digits <:+: lead ++ w.digits ++ back :=
    ⟨lead, back, rfl⟩
  cases c with
  | both w =>
    cases w with
    | none => exact List.nil_infix
    | some w => exact hwithin ['<', '-'] ['-', '>'] w
  | forward long w =>
    cases w with
    | none => exact List.nil_infix
    | some w =>
      cases long with
      | false => exact hwithin ['-'] ['-', '>'] w
      | true => exact hwithin ['-', '-'] ['-', '>'] w
  | backward w =>
    cases w with
    | none => exact List.nil_infix
    | some w => exact hwithin ['<', '-'] ['-'] w
  | dashes w =>
    cases w with
    | none => exact List.nil_infix
    | some w => exact hwithin ['-'] ['-', '-'] w
  | single w => exact hwithin ['-'] ['-'] w

theorem Connector.all_digits (c : Connector) : ∀ d ∈ c.digits, isDigit d = true := by
  rw [Connector.digits]
  cases c.weight? with
  | none => exact nofun
  | some w => exact w.all_digits

theorem Form.split?_digits {form : Form} {left digits right : List Char}
    (h : form.split? cs = some (left, digits, right)) :
    digits <:+: cs ∧ ∀ d ∈ digits, isDigit d = true := by
  unfold split? at h
  split at h
  · rename_i found hfind
    obtain ⟨c, tail, -, rfl, -, rfl, -⟩ := find?_eq (hfind.trans h)
    exact ⟨c.digits_within.trans ⟨left, tail, rfl⟩, c.all_digits⟩
  · -- A text that is cut at the mark gives no weight.
    obtain ⟨mark, -, h⟩ := Option.bind_eq_some_iff.mp h
    obtain ⟨ends, -, he⟩ := Option.bind_eq_some_iff.mp h
    cases he
    exact ⟨List.nil_infix, nofun⟩

/-! ### Faults -/

theorem wholeOfDigits?_none (hall : ∀ c ∈ cs, isDigit c = true) (h : wholeOfDigits? cs = none) :
    TooLong cs (.tooManyDigits cs.length) := by
  refine ⟨cs, List.infix_rfl, hall, ?_, rfl⟩
  by_contra hshort
  rw [wholeOfDigits?, if_pos (Nat.not_lt.mp hshort)] at h
  cases h

theorem sizeOf_error {token : List Char} (h : sizeOf token = .error f) : TooLong token f := by
  have hrest {rest : List Char} (hsuffix : rest <:+ token)
      (hnone : wholeOfDigits? (rest.takeWhile isDigit) = none) :
      TooLong token (.tooManyDigits (rest.takeWhile isDigit).length) :=
    (wholeOfDigits?_none (fun c => List.mem_takeWhile_imp) hnone).mono
      ((List.takeWhile_prefix isDigit).isInfix.trans hsuffix.isInfix)
  unfold sizeOf at h
  split at h
  rename_i neg rest hsign
  have hsuffix : rest <:+ token := by
    split at hsign
    · cases hsign
      exact List.suffix_cons _ _
    · cases hsign
      exact List.suffix_cons _ _
    · cases hsign
      exact List.suffix_rfl
  dsimp only at h
  split at h
  · cases h
  · split at h
    · rename_i hnone
      cases h
      exact hrest hsuffix hnone
    · cases h

theorem weightOf_error (hall : ∀ c ∈ cs, isDigit c = true) (h : weightOf cs = .error f) : TooLong cs f := by
  unfold weightOf at h
  split at h
  · cases h
  · split at h
    · cases h
    · rename_i hnone
      cases h
      exact wholeOfDigits?_none hall hnone

theorem traits_error {color : Option String} {size : Option Nat} {tokens : List (List Char)}
    (h : traits color size tokens = .error f) : ∃ token ∈ tokens, TooLong token f := by
  induction tokens generalizing color size with
  | nil => cases h
  | cons token tokens ih =>
    have hlater {color : Option String} {size : Option Nat} (h : traits color size tokens = .error f) :
        ∃ token' ∈ token :: tokens, TooLong token' f := by
      obtain ⟨found, hm, hlong⟩ := ih h
      exact ⟨found, List.mem_cons_of_mem token hm, hlong⟩
    unfold traits at h
    split at h
    · exact hlater h
    · split at h
      · rcases bind_eq_error h with hsize | ⟨found, -, h⟩
        · exact ⟨token, List.mem_cons_self, sizeOf_error hsize⟩
        · exact hlater h
      · exact hlater h

theorem matchNode_error {tokens : List (List Char)} (h : matchNode tokens = .error f) :
    ∃ token ∈ tokens, TooLong token f := by
  unfold matchNode at h
  split at h
  · rename_i first id rest
    dsimp only at h
    split at h
    · rcases bind_eq_error h with h | ⟨found, -, h⟩
      · obtain ⟨token, hm, hlong⟩ := traits_error h
        exact ⟨token, List.mem_cons_of_mem _ (List.mem_cons_of_mem _ hm), hlong⟩
      · cases h
    · cases h
  · cases h

theorem readLink_error (h : readLink cs = .error f) : TooLong cs f := by
  unfold readLink at h
  split at h
  · rename_i form left digits right hfound
    obtain ⟨form', -, hform⟩ := List.exists_of_findSome?_eq_some hfound
    obtain ⟨parts, hsplit, he⟩ := Option.map_eq_some_iff.mp hform
    cases he
    obtain ⟨hdigits, hall⟩ := Form.split?_digits hsplit
    have hlink := map_eq_error h
    rcases bind_eq_error hlink with hweight | ⟨weight, -, hlink⟩
    · exact (weightOf_error hall hweight).mono hdigits
    · split at hlink
      · cases hlink
      · cases hlink
  · cases h

theorem matchEdge_error {line : List Char} (h : matchEdge line = .error f) : TooLong line f := by
  unfold matchEdge at h
  rcases bind_eq_error h with hlink | ⟨found, -, h⟩
  · exact (readLink_error hlink).mono (List.takeWhile_prefix _).isInfix
  · split at h
    · cases h
    · split at h <;> cases h

theorem readLine_error {line : List Char} (h : readLine line = .error f) : TooLong line f := by
  unfold readLine at h
  split at h
  · cases h
  · rcases bind_eq_error h with hnode | ⟨found, -, h⟩
    · obtain ⟨token, hm, hlong⟩ := matchNode_error hnode
      exact hlong.mono (words_within hm)
    · cases found with
      | none => exact matchEdge_error h
      | some decl => cases h

theorem declarations_error {lines : List (List Char)} (h : declarations lines = .error f) :
    ∃ line ∈ lines, TooLong line f := by
  induction lines with
  | nil => cases h
  | cons line rest ih =>
    rcases bind_eq_error h with hline | ⟨found, -, h⟩
    · exact ⟨line, List.mem_cons_self, readLine_error hline⟩
    · rcases bind_eq_error h with hrest | ⟨more, -, h⟩
      · obtain ⟨later, hm, hlong⟩ := ih hrest
        exact ⟨later, List.mem_cons_of_mem line hm, hlong⟩
      · cases h

/-- Reading a text fails at a number that is too long, or it gives a graph. -/
theorem parse_cases (text : List Char) :
    (∃ g, parse text = .ok g) ∨ ∃ f, parse text = .error f ∧ TooLong text f := by
  cases h : declarations (statements text) with
  | ok D =>
    -- What is left is to build the graph, and that always succeeds.
    obtain ⟨g, hg, -⟩ := build_means (holds_foldl D)
    refine Or.inl ⟨g, ?_⟩
    rw [parse, readStatements_eq, h]
    exact hg
  | error f =>
    obtain ⟨line, hm, hlong⟩ := declarations_error h
    refine Or.inr ⟨f, ?_, hlong.mono (statements_within hm)⟩
    rw [parse, readStatements_eq, h]
    rfl

/-! ### A size that is too long -/

section

variable {digits : List Char}

theorem statements_of_size (hall : ∀ c ∈ digits, isDigit c = true) (ne : digits ≠ []) :
    statements ("node A ".toList ++ digits) = ["node A ".toList ++ digits] := by
  have hplain : ∀ c ∈ digits, isBlank c = false := fun c hc => not_isBlank_of_isDigit (hall c hc)
  have hline : ∀ c ∈ "node A ".toList ++ digits, isLineBreak c = false := by
    intro c hc
    rcases List.mem_append.mp hc with hc | hc
    · have hlead : ∀ c ∈ ['n', 'o', 'd', 'e', ' ', 'A', ' '], isLineBreak c = false := unbroken_of_all rfl
      exact hlead c hc
    · cases hb : isLineBreak c with
      | false => rfl
      | true => exact absurd (isBlank_of_isLineBreak hb) (by simp [hplain c hc])
  have htrim : trim ("node A ".toList ++ digits) = "node A ".toList ++ digits := by
    have hstart : trimStart ("node A ".toList ++ digits) = "node A ".toList ++ digits := rfl
    obtain ⟨front, last, rfl⟩ : ∃ front last, digits = front ++ [last] :=
      ⟨digits.dropLast, digits.getLast ne, (List.dropLast_append_getLast ne).symm⟩
    rw [trim, hstart, trimEnd, ← List.append_assoc, List.reverse_concat,
      List.dropWhile_cons_of_neg (by simp [hplain last]), List.reverse_cons, List.reverse_reverse]
  rw [statements_line hline, statementsOf, htrim]
  rfl

theorem sizeOf_digits (hall : ∀ c ∈ digits, isDigit c = true) (hlong : digitLimit < digits.length) :
    sizeOf digits = .error (.tooManyDigits digits.length) := by
  have htake : digits.takeWhile isDigit = digits := List.takeWhile_eq_self_iff.mpr hall
  have hwhole : wholeOfDigits? digits = none := if_neg (Nat.not_le.mpr hlong)
  have hne : digits.isEmpty = false := by
    cases digits with
    | nil => cases hlong
    | cons d ds => rfl
  unfold sizeOf
  split
  rename_i neg rest hsign
  have hrest : rest = digits := by
    split at hsign
    · exact absurd (hall '-' List.mem_cons_self) (by decide)
    · exact absurd (hall '+' List.mem_cons_self) (by decide)
    · cases hsign
      rfl
  simp [hrest, htake, hne, hwhole]

theorem readLine_of_size (hall : ∀ c ∈ digits, isDigit c = true) (hlong : digitLimit < digits.length) :
    readLine ("node A ".toList ++ digits) = .error (.tooManyDigits digits.length) := by
  have ne : digits ≠ [] := List.ne_nil_of_length_pos (Nat.zero_lt_of_lt hlong)
  have hplain : ∀ c ∈ digits, isBlank c = false := fun c hc => not_isBlank_of_isDigit (hall c hc)
  have hsplit : splitBlanks digits = (digits, []) := by
    have h : splitBlanks (digits ++ []) = (digits ++ (splitBlanks []).1, (splitBlanks []).2) :=
      splitBlanks_append hplain
    simpa only [List.append_nil, splitBlanks] using h
  have hwords : words ("node A ".toList ++ digits) = [['n', 'o', 'd', 'e'], ['A'], digits] := by
    have hlead : words ("node A ".toList ++ digits) = ['n', 'o', 'd', 'e'] :: ['A'] ::
        (if (splitBlanks digits).1.isEmpty then (splitBlanks digits).2
          else (splitBlanks digits).1 :: (splitBlanks digits).2) := rfl
    rw [hlead, hsplit]
    simp [ne]
  have hcolor : startsWith ['#'] digits = false := by
    cases digits with
    | nil => rfl
    | cons d ds =>
      have hd : '#' ≠ d := by
        rintro rfl
        exact absurd (hall '#' List.mem_cons_self) (by decide)
      simp [startsWith, afterLead?, hd]
  have htraits : traits none none [digits] = .error (.tooManyDigits digits.length) := by
    simp [traits, hcolor, sizeOf_digits hall hlong, bind, Except.bind]
  have hnode : matchNode (words ("node A ".toList ++ digits)) = .error (.tooManyDigits digits.length) := by
    have hkeyword : nodeKeywords.contains (toSmall ['n', 'o', 'd', 'e']) = true := by decide
    rw [hwords, matchNode]
    simp only [hkeyword, if_true, htraits, bind, Except.bind]
  have htitle : matchTitle ("node A ".toList ++ digits) = none := rfl
  rw [readLine, htitle, hnode]
  rfl

/-- Whatever more than 4300 digits a node is given for a size, the text has no graph. -/
theorem parse_of_long_size (hall : ∀ c ∈ digits, isDigit c = true) (hlong : digitLimit < digits.length) :
    parse ("node A ".toList ++ digits) = .error (.tooManyDigits digits.length) := by
  have ne : digits ≠ [] := List.ne_nil_of_length_pos (Nat.zero_lt_of_lt hlong)
  rw [parse, statements_of_size hall ne, readStatements, readLine_of_size hall hlong]
  rfl

end

/-- A text without more than 4300 digits in a row has a graph. What fails at all is a number of the text
with more digits than that, and it counts as a value error. -/
theorem parse_fails_on_long_numbers_only (text : List Char) :
    ((∀ run, run <:+: text → (∀ c ∈ run, isDigit c = true) → run.length ≤ 4300) →
      ∃ g, parse text = .ok g) ∧
    ∀ f, parse text = .error f → f.label = "ValueError" ∧ TooLong text f := by
  constructor
  · intro hshort
    rcases parse_cases text with hok | ⟨f, -, run, hrun, hdigits, hlong, -⟩
    · exact hok
    · exact absurd (hshort run hrun hdigits) (Nat.not_le.mpr hlong)
  · intro f hf
    rcases parse_cases text with ⟨g, hg⟩ | ⟨f', hf', hlong⟩
    · rw [hg] at hf
      cases hf
    · rw [hf] at hf'
      cases hf'
      obtain ⟨run, -, -, -, rfl⟩ := id hlong
      exact ⟨rfl, hlong⟩

/-- A node with a size of two digits, and one with a digit too many. -/
theorem parse_short_and_long_size :
    let text := "node A 77".toList
    let longText := "node A ".toList ++ List.replicate 4301 '7'
    (∃ g, parse text = .ok g) ∧
      ∃ f, parse longText = .error f ∧ f.label = "ValueError" ∧ TooLong longText f := by
  intro text longText
  have hshort : ∀ run, run <:+: text → (∀ c ∈ run, isDigit c = true) → run.length ≤ 4300 := by
    intro run hrun _
    have hlen : run.length ≤ text.length := hrun.length_le
    have htext : text.length = 9 := rfl
    omega
  have hall : ∀ c ∈ List.replicate 4301 '7', isDigit c = true := by
    intro c hc
    rw [List.eq_of_mem_replicate hc]
    rfl
  have hlong : digitLimit < (List.replicate 4301 '7').length := by
    rw [List.length_replicate]
    decide
  have hfail := parse_of_long_size hall hlong
  exact ⟨(parse_fails_on_long_numbers_only text).1 hshort, _, hfail,
    (parse_fails_on_long_numbers_only longText).2 _ hfail⟩

end NodeLink.Source
