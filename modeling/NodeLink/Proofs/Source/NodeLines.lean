import NodeLink.Proofs.Outcome
import NodeLink.Source.Declaration
import Mathlib.Data.List.TakeWhile

/-!
# Node lines

A node line has a keyword, an id, and further tokens in any order. Its colour is the first of these with a hash, and
its size the first that begins with a positive number. Tokens with a hash begin with no number, so the two kinds of
tokens do not get into each other's way and only the order within each kind counts. A number with more text behind
it counts as the number; where there is none of that, the size is the first token that is a positive number.
-/

namespace NodeLink.Source

open NodeLink.Text

variable {token line first id : List Char} {rest : List (List Char)}

def unsigned (token : List Char) : List Char :=
  if token.head? = some '-' ∨ token.head? = some '+' then token.tail else token

/-- The digits that a token begins with, after a sign or without one. -/
def frontDigits (token : List Char) : List Char := (unsigned token).takeWhile isDigit

/-- The positive number that a token begins with. -/
def frontSize? (token : List Char) : Option Nat :=
  if token.head? = some '-' ∨ digitsValue (frontDigits token) = 0 then none
  else some (digitsValue (frontDigits token))

/-- The positive number that a token is: digits alone or after a plus. -/
def wholeSize? (token : List Char) : Option Nat :=
  let digits := if token.head? = some '+' then token.tail else token
  if digits.all isDigit ∧ digitsValue digits ≠ 0 then some (digitsValue digits) else none

/-- A token that begins with a number is nothing but that number. -/
def Undivided (token : List Char) : Prop := frontDigits token = [] ∨ frontDigits token = unsigned token

def Short (token : List Char) : Prop := (frontDigits token).length ≤ digitLimit

instance (token : List Char) : Decidable (Undivided token) := inferInstanceAs (Decidable (_ ∨ _))

instance (token : List Char) : Decidable (Short token) := inferInstanceAs (Decidable (_ ≤ _))

def firstColor? (tokens : List (List Char)) : Option String := (tokens.find? (startsWith ['#'])).map resolveColor

/-- The size that a token gives, unless the number in front has too many digits to be read. -/
def readSize (token : List Char) : Except Fault (Option Nat) :=
  if Short token then .ok (frontSize? token) else .error (.tooManyDigits (frontDigits token).length)

/-- Up to the first token that is a positive number, every number can be read and has no more text behind it. -/
def Orderly : List (List Char) → Prop
  | [] => True
  | token :: tokens => Short token ∧ Undivided token ∧ (wholeSize? token = none → Orderly tokens)

/-! ### Sizes of tokens -/

theorem sizeOf_eq (token : List Char) : sizeOf token = readSize token := by
  unfold sizeOf
  split
  rename_i negative cs hsign
  have hcs : cs = unsigned token ∧ (negative = true ↔ token.head? = some '-') := by
    split at hsign <;> cases hsign <;> simp_all [unsigned, List.head?_eq_some_iff]
  obtain ⟨rfl, hnegative⟩ := hcs
  have hdigits : (unsigned token).takeWhile isDigit = frontDigits token := rfl
  simp only [hdigits]
  by_cases hempty : frontDigits token = []
  · have hshort : Short token := by simp [Short, hempty]
    simp [readSize, hshort, frontSize?, hempty, digitsValue]
  · rw [if_neg (by simpa using hempty), readSize]
    by_cases hshort : Short token
    · have hwhole : wholeOfDigits? (frontDigits token) = some (digitsValue (frontDigits token)) := if_pos hshort
      rw [hwhole, if_pos hshort]
      simp [frontSize?, hnegative]
    · have hwhole : wholeOfDigits? (frontDigits token) = none := if_neg hshort
      rw [hwhole, if_neg hshort]

/-- Digits in front of a text are all of it, or there is no number that is all of it. -/
theorem front_eq_whole {cs : List Char} (h : cs.takeWhile isDigit = [] ∨ cs.takeWhile isDigit = cs) :
    (if digitsValue (cs.takeWhile isDigit) = 0 then none else some (digitsValue (cs.takeWhile isDigit))) =
      if cs.all isDigit ∧ digitsValue cs ≠ 0 then some (digitsValue cs) else none := by
  rcases h with hnone | hall
  · rw [hnone, if_pos (by rfl)]
    rcases cs with _ | ⟨c, cs⟩
    · rfl
    · have hc : isDigit c = false := by
        by_contra hc
        rw [List.takeWhile_cons_of_pos (by simpa using hc)] at hnone
        cases hnone
      simp [hc]
  · have hdigits : cs.all isDigit = true := List.all_eq_true.mpr (List.takeWhile_eq_self_iff.mp hall)
    rw [hall]
    by_cases hzero : digitsValue cs = 0
    · simp [hzero]
    · simp [hzero, hdigits]

theorem frontSize?_undivided (h : Undivided token) : frontSize? token = wholeSize? token := by
  unfold frontSize? wholeSize?
  by_cases hminus : token.head? = some '-'
  · obtain ⟨cs, rfl⟩ := List.head?_eq_some_iff.mp hminus
    have hdash : isDigit '-' = false := by decide
    simp [hdash]
  by_cases hplus : token.head? = some '+'
  · have hcs : unsigned token = token.tail := if_pos (Or.inr hplus)
    rw [Undivided, frontDigits, hcs] at h
    simpa [frontDigits, hcs, hminus, hplus] using front_eq_whole h
  · have hcs : unsigned token = token := if_neg (not_or.mpr ⟨hminus, hplus⟩)
    rw [Undivided, frontDigits, hcs] at h
    simpa [frontDigits, hcs, hminus, hplus] using front_eq_whole h

theorem startsWith_hash (token : List Char) : startsWith ['#'] token = true ↔ token.head? = some '#' := by
  rcases token with _ | ⟨c, cs⟩
  · simp [startsWith, afterLead?]
  · by_cases h : c = '#'
    · simp [startsWith, afterLead?, h]
    · simp [startsWith, afterLead?, h, Ne.symm h]

theorem sizeOf_hashed (h : startsWith ['#'] token = true) : sizeOf token = .ok none := by
  obtain ⟨cs, rfl⟩ := List.head?_eq_some_iff.mp ((startsWith_hash token).mp h)
  rfl

theorem findSomeM?_orderly {tokens : List (List Char)} (h : Orderly tokens) :
    tokens.findSomeM? readSize = .ok (tokens.findSome? wholeSize?) := by
  induction tokens with
  | nil => rfl
  | cons token tokens ih =>
    obtain ⟨hshort, hundivided, hrest⟩ := h
    have hsize : readSize token = .ok (wholeSize? token) := by
      rw [readSize, if_pos hshort, frontSize?_undivided hundivided]
    rw [List.findSomeM?, bind_of_ok hsize, List.findSome?_cons]
    cases hfirst : wholeSize? token with
    | some n => rfl
    | none => exact ih (hrest hfirst)

/-! ### Colours and sizes -/

theorem findSomeM?_unhashed (tokens : List (List Char)) :
    (tokens.filter (!startsWith ['#'] ·)).findSomeM? sizeOf = tokens.findSomeM? sizeOf := by
  induction tokens with
  | nil => rfl
  | cons token tokens ih =>
    by_cases h : startsWith ['#'] token = true
    · rw [List.filter_cons_of_neg (by simp [h]), List.findSomeM?, bind_of_ok (sizeOf_hashed h)]
      exact ih
    · rw [List.filter_cons_of_pos (by simpa using h), List.findSomeM?, List.findSomeM?, ih]

theorem firstColor?_hashed (h : startsWith ['#'] token = true) (tokens : List (List Char)) :
    firstColor? (token :: tokens) = some (resolveColor token) := by
  rw [firstColor?, List.find?_cons_of_pos h]
  rfl

/-- A colour that is found stays, and so does a size; what is missing comes from the tokens that follow. -/
theorem traits_eq (color : Option String) (size : Option Nat) (tokens : List (List Char)) :
    traits color size tokens =
      (fun found => (color <|> firstColor? tokens, found)) <$>
        size.elim (tokens.findSomeM? sizeOf) (fun n => .ok (some n)) := by
  -- a word with a hash is taken for the color once; after that it is asked for a size, and has none
  induction tokens generalizing color size with
  | nil => cases color <;> cases size <;> rfl
  | cons token tokens ih =>
    by_cases h : color.isNone && startsWith ['#'] token
    · obtain ⟨hnone, hhash⟩ := Bool.and_eq_true_iff.mp h
      obtain rfl := Option.isNone_iff_eq_none.mp hnone
      have hskip : (token :: tokens).findSomeM? sizeOf = tokens.findSomeM? sizeOf := by
        rw [List.findSomeM?, bind_of_ok (sizeOf_hashed hhash)]
      rw [traits, if_pos h, ih, firstColor?_hashed hhash, hskip]
      rfl
    · have hcolor : (color <|> firstColor? (token :: tokens)) = (color <|> firstColor? tokens) := by
        cases color with
        | some color => rfl
        | none => rw [firstColor?, List.find?_cons_of_neg (by simpa using h), firstColor?]
      rw [traits, if_neg h, hcolor]
      cases size with
      | some n => exact ih color (some n)
      | none =>
        change (sizeOf token >>= fun found => traits color found tokens) = _
        cases hsize : sizeOf token with
        | error f =>
          rw [Option.elim_none, List.findSomeM?, hsize]
          rfl
        | ok found =>
          rw [bind_of_ok rfl, ih, Option.elim_none, List.findSomeM?, bind_of_ok hsize]
          cases found with
          | none => rfl
          | some n => rfl

/-! ### Lines -/

/-- A line of a keyword, an id and further tokens that is no title. -/
structure IsNodeLine (line first id : List Char) (rest : List (List Char)) : Prop where
  untitled : matchTitle line = none
  words_eq : words line = first :: id :: rest
  keyword : toSmall first ∈ nodeKeywords

/-- What a node line declares, given its size. -/
def declared (first id : List Char) (rest : List (List Char)) (size : Option Nat) : NodeDecl where
  keyword := String.ofList (toSmall first)
  id := String.ofList id
  size := size.getD defaultSize
  color := (firstColor? rest).getD defaultColor
  icon := iconOf? (toSmall first)

theorem readLine_node (h : IsNodeLine line first id rest) :
    readLine line =
      (fun size => (some (.node (declared first id rest size)), [])) <$> rest.findSomeM? sizeOf := by
  have hkeyword : nodeKeywords.contains (toSmall first) = true := by simpa using h.keyword
  rw [readLine, h.untitled, h.words_eq, matchNode]
  simp only [hkeyword, if_true]
  rw [traits_eq, Option.elim_none]
  cases rest.findSomeM? sizeOf with
  | error f => rfl
  | ok size => rfl

/-- The size of a node line is the first positive number that a token begins with, unless a number is too long to be
read before. It is the first positive number that a token is, where no number has more text behind it. In which order
colours and other tokens stand makes no difference. -/
theorem node_lines_declare_nodes (h : IsNodeLine line first id rest) :
    readLine line =
      (fun size => (some (.node (declared first id rest size)), [])) <$> rest.findSomeM? readSize ∧
    (Orderly rest →
      readLine line = .ok (some (.node (declared first id rest (rest.findSome? wholeSize?))), [])) ∧
    ∀ line' rest', IsNodeLine line' first id rest' →
      rest'.filter (startsWith ['#']) = rest.filter (startsWith ['#']) →
      rest'.filter (!startsWith ['#'] ·) = rest.filter (!startsWith ['#'] ·) → readLine line' = readLine line := by
  have hread : sizeOf = readSize := funext sizeOf_eq
  refine ⟨?_, ?_, ?_⟩
  · rw [readLine_node h, hread]
  · intro horderly
    rw [readLine_node h, hread, findSomeM?_orderly horderly]
    rfl
  · intro line' rest' h' hcolors hothers
    have hcolor : firstColor? rest' = firstColor? rest := by
      rw [firstColor?, firstColor?, ← List.head?_filter, ← List.head?_filter, hcolors]
    have hsize : rest'.findSomeM? sizeOf = rest.findSomeM? sizeOf := by
      rw [← findSomeM?_unhashed rest', ← findSomeM?_unhashed rest, hothers]
    rw [readLine_node h', readLine_node h, hsize]
    simp only [declared, hcolor]

/-- A line with two colours and two numbers, and its tokens in another order. -/
theorem twofold_traits_are_declared :
    let line := "TAG T #red +20 #blue 7cm".toList
    let line' := "TAG T +20 7cm #red #blue".toList
    (∃ d, readLine line = .ok (some (.node d), []) ∧ d.id = "T" ∧ d.size = 20 ∧ d.color = "#ff0000") ∧
      readLine line' = readLine line := by
  intro line line'
  let rest := ["#red".toList, "+20".toList, "#blue".toList, "7cm".toList]
  have hline : IsNodeLine line "TAG".toList "T".toList rest := by
    constructor
    · rfl
    · rfl
    · decide
  have hline' : IsNodeLine line' "TAG".toList "T".toList
      ["+20".toList, "7cm".toList, "#red".toList, "#blue".toList] := by
    constructor
    · rfl
    · rfl
    · decide
  have horderly : Orderly rest := by
    refine ⟨by decide, by decide, fun _ => ⟨by decide, by decide, fun hnone => ?_⟩⟩
    exact absurd hnone (by decide)
  obtain ⟨-, hwhole, hmoved⟩ := node_lines_declare_nodes hline
  exact ⟨⟨_, hwhole horderly, rfl, rfl, rfl⟩, hmoved line' _ hline' rfl rfl⟩

/-- A number with decimal places is taken for a size, though the token behind it is a positive number. -/
theorem decimal_places_are_cut_off :
    let line := "node N 3.5 20".toList
    let rest := ["3.5".toList, "20".toList]
    IsNodeLine line "node".toList "N".toList rest ∧ rest.findSome? wholeSize? = some 20 ∧
      ∃ d, readLine line = .ok (some (.node d), []) ∧ d.size = 3 := by
  intro line rest
  have hline : IsNodeLine line "node".toList "N".toList rest := by
    constructor
    · rfl
    · rfl
    · decide
  exact ⟨hline, rfl, _, rfl, rfl⟩

end NodeLink.Source
