import NodeLink.Proofs.Source.Meaning
import NodeLink.Proofs.Text.Parts
import Mathlib.Data.List.TakeWhile

/-!
# Line ends, blanks and idle lines

A diagram text means what its statements declare in order. How its lines end, the blanks around them and
the lines between them that say nothing make no difference.
-/

namespace NodeLink.Source

open NodeLink.Text

/-- The ways in which a line ends. -/
def lineEnds : List (List Char) :=
  [['\n'], ['\r'], ['\r', '\n'], ['\x0b'], ['\x0c'], ['\x1c'], ['\x1d'], ['\x1e'], ['\x85'],
    ['\u2028'], ['\u2029']]

/-- A line that says nothing: it is blank, a comment or not recognised. -/
structure Idle (line : List Char) : Prop where
  unbroken : ∀ c ∈ line, isLineBreak c = false
  silent : trim line = [] ∨ startsWith commentMark (trim line) = true ∨
    ∃ notices, readLine (trim line) = .ok (none, notices)

/-- The text is the lines one after the other, each with blanks around it and an end behind it, and idle
lines in any places. The last line may do without an end. -/
inductive Spells : List (List Char) → List Char → Prop where
  | nothing : Spells [] []
  | last (before line after : List Char) (hb : ∀ c ∈ before, isBlank c = true)
      (ha : ∀ c ∈ after, isBlank c = true) : Spells [line] (before ++ line ++ after)
  | lastIdle (line : List Char) (hi : Idle line) : Spells [] line
  | line (before line after : List Char) {ending text : List Char} {lines : List (List Char)}
      (hb : ∀ c ∈ before, isBlank c = true) (ha : ∀ c ∈ after, isBlank c = true)
      (he : ending ∈ lineEnds) (rest : Spells lines text) :
      Spells (line :: lines) (before ++ line ++ after ++ ending ++ text)
  | idle (line : List Char) {ending text : List Char} {lines : List (List Char)} (hi : Idle line)
      (he : ending ∈ lineEnds) (rest : Spells lines text) : Spells lines (line ++ ending ++ text)

/-- What a line has to say: itself without the blanks around it, unless it is blank or a comment. -/
def statementsOf (line : List Char) : List (List Char) :=
  [trim line].filter fun line => !line.isEmpty && !startsWith commentMark line

variable {c : Char} {line before after ending text : List Char}

theorem unbroken_of_all (h : line.all (!isLineBreak ·) = true) : ∀ c ∈ line, isLineBreak c = false := by
  simpa using h

/-! ### Blanks around a line -/

theorem trim_cons (hc : isBlank c = true) (cs : List Char) : trim (c :: cs) = trim cs := by
  simp [trim, trimStart, hc]

theorem trim_concat (hc : isBlank c = true) (cs : List Char) : trim (cs ++ [c]) = trim cs := by
  by_cases hall : ∀ d ∈ cs, isBlank d = true
  · have hnone : cs.dropWhile isBlank = [] := List.dropWhile_eq_nil_iff.mpr hall
    have hnone' : (cs ++ [c]).dropWhile isBlank = [] := by
      rw [List.dropWhile_append_of_pos hall]
      simp [hc]
    rw [trim, trimStart, hnone', trim, trimStart, hnone]
  · have hstart : (cs ++ [c]).dropWhile isBlank = cs.dropWhile isBlank ++ [c] := by
      rw [List.dropWhile_append, if_neg]
      rw [List.isEmpty_iff, List.dropWhile_eq_nil_iff]
      exact hall
    rw [trim, trimStart, hstart, trimEnd, List.reverse_append]
    simp [hc, trim, trimStart, trimEnd]

theorem isBlank_of_isLineBreak (hc : isLineBreak c = true) : isBlank c = true := by
  simp only [isLineBreak, Bool.or_eq_true, Bool.and_eq_true, decide_eq_true_eq, beq_iff_eq] at hc
  simp only [isBlank, Bool.or_eq_true, Bool.and_eq_true, decide_eq_true_eq, beq_iff_eq]
  omega

/-! ### Statements -/

theorem statements_eq_parts (text : List Char) :
    statements text = (splitAtEach isLineBreak text).flatMap statementsOf := by
  have hpart (ls : List (List Char)) :
      (ls.map trim).filter (fun line => !line.isEmpty && !startsWith commentMark line) =
        ls.flatMap statementsOf := by
    induction ls with
    | nil => rfl
    | cons l ls ih => rw [List.map_cons, List.flatMap_cons, ← ih, statementsOf, ← List.filter_append]; rfl
  rw [statements, hpart]
  exact flatMap_lines rfl text

/-- A break between two texts keeps what they say apart. -/
theorem statements_append_cons (hc : isLineBreak c = true) (before after : List Char) :
    statements (before ++ c :: after) = statements before ++ statements after := by
  rw [statements_eq_parts, splitAtEach_append_cons hc, List.flatMap_append, ← statements_eq_parts,
    ← statements_eq_parts]

theorem statements_cons (hc : isBlank c = true) (text : List Char) :
    statements (c :: text) = statements text := by
  cases hbreak : isLineBreak c with
  | true => exact statements_append_cons hbreak [] text
  | false =>
    obtain ⟨part, parts, h, hcons⟩ := splitAtEach_cons hbreak text
    rw [statements_eq_parts, statements_eq_parts, h, hcons, List.flatMap_cons, List.flatMap_cons,
      statementsOf, trim_cons hc, ← statementsOf]

theorem statements_concat (hc : isBlank c = true) (text : List Char) :
    statements (text ++ [c]) = statements text := by
  cases hbreak : isLineBreak c with
  | true => exact (statements_append_cons hbreak text []).trans (List.append_nil _)
  | false =>
    obtain ⟨parts, last, h, hlast⟩ := splitAtEach_concat hbreak text
    rw [statements_eq_parts, statements_eq_parts, h, hlast, List.flatMap_append, List.flatMap_append,
      List.flatMap_singleton, List.flatMap_singleton, statementsOf, trim_concat hc, ← statementsOf]

theorem statements_blanks_append (hb : ∀ c ∈ before, isBlank c = true) (text : List Char) :
    statements (before ++ text) = statements text := by
  induction before with
  | nil => rfl
  | cons c before ih =>
    obtain ⟨hc, hb⟩ := List.forall_mem_cons.mp hb
    rw [List.cons_append, statements_cons hc, ih hb]

theorem statements_append_blanks (ha : ∀ c ∈ after, isBlank c = true) (text : List Char) :
    statements (text ++ after) = statements text := by
  induction after using List.reverseRecOn with
  | nil => rw [List.append_nil]
  | append_singleton after c ih =>
    have hc : isBlank c = true := ha c (by simp)
    rw [← List.append_assoc, statements_concat hc, ih fun d hd => ha d (List.mem_append_left _ hd)]

/-- Every line end is closed by a break, so that nothing behind it runs into the line. -/
theorem statements_ending (he : ending ∈ lineEnds) (line text : List Char) :
    statements (line ++ ending ++ text) = statements line ++ statements text := by
  obtain ⟨front, c, rfl, hf, hc⟩ : ∃ front c, ending = front ++ [c] ∧
      (∀ d ∈ front, isBlank d = true) ∧ isLineBreak c = true := by
    simp only [lineEnds, List.mem_cons, List.not_mem_nil, or_false] at he
    rcases he with rfl | rfl | rfl | rfl | rfl | rfl | rfl | rfl | rfl | rfl | rfl
    case inr.inr.inl => exact ⟨['\r'], '\n', rfl, List.all_eq_true.mp rfl, rfl⟩
    all_goals exact ⟨[], _, rfl, nofun, rfl⟩
  have hcut : line ++ (front ++ [c]) ++ text = (line ++ front) ++ c :: text := by simp
  rw [hcut, statements_append_cons hc, statements_append_blanks hf]

theorem statements_line (hl : ∀ c ∈ line, isLineBreak c = false) :
    statements line = statementsOf line := by
  rw [statements_eq_parts, splitAtEach_of_none hl, List.flatMap_singleton]

/-! ### What statements declare -/

theorem declarations_append (front back : List (List Char)) :
    declarations (front ++ back) = (do return (← declarations front) ++ (← declarations back)) := by
  induction front with
  | nil =>
    cases h : declarations back with
    | error f => simp [declarations, h, bind, Except.bind]
    | ok D => simp [declarations, h, bind, Except.bind, pure, Except.pure]
  | cons line front ih =>
    simp only [List.cons_append, declarations, ih]
    cases hline : readLine line with
    | error f => rfl
    | ok found =>
      cases hfront : declarations front with
      | error f => rfl
      | ok D =>
        cases hback : declarations back with
        | error f => rfl
        | ok E => simp [bind, Except.bind, pure, Except.pure]

theorem declarations_idle (hi : Idle line) : declarations (statements line) = .ok [] := by
  rw [statements_line hi.unbroken, statementsOf]
  cases hkept : !(trim line).isEmpty && !startsWith commentMark (trim line) with
  | false => simp [hkept, declarations]
  | true =>
    rcases hi.silent with hempty | hcomment | ⟨notices, hread⟩
    · simp [hempty] at hkept
    · simp [hcomment] at hkept
    · simp [hkept, declarations, hread, bind, Except.bind, pure, Except.pure]

/-- A text declares what its lines declare. -/
theorem declarations_spells {lines : List (List Char)} (h : Spells lines text) :
    declarations (statements text) = declarations (lines.flatMap statements) := by
  have hpadded {before line after : List Char} (hb : ∀ c ∈ before, isBlank c = true)
      (ha : ∀ c ∈ after, isBlank c = true) : statements (before ++ line ++ after) = statements line := by
    rw [statements_append_blanks ha, statements_blanks_append hb]
  induction h with
  | nothing => rfl
  | last before line after hb ha => rw [hpadded hb ha, List.flatMap_singleton]
  | lastIdle line hi => exact declarations_idle hi
  | line before line after hb ha he rest ih =>
    rw [statements_ending he, hpadded hb ha, List.flatMap_cons, declarations_append, ih,
      declarations_append]
  | idle line hi he rest ih =>
    rw [statements_ending he, declarations_append, declarations_idle hi, ih]
    cases declarations _ <;> rfl

/-- Texts that declare the same have the same graph or fail in the same way. -/
theorem parse_eq_of_declarations {text text' : List Char}
    (h : declarations (statements text) = declarations (statements text')) :
    parse text = parse text' := by
  rw [parse, readStatements_eq, h, ← readStatements_eq, ← parse]

/-- Statements of texts with a break between them follow one another, and what a text is parsed to hangs
only on its lines: not on how they end, on the blanks around them or on idle lines between them. -/
theorem parse_reads_only_lines :
    (∀ before after : List Char,
      statements (before ++ '\n' :: after) = statements before ++ statements after) ∧
    ∀ (lines : List (List Char)) (text text' : List Char), Spells lines text → Spells lines text' →
      parse text = parse text' := by
  refine ⟨fun before after => statements_append_cons (by decide) before after, ?_⟩
  intro lines text text' h h'
  apply parse_eq_of_declarations
  rw [declarations_spells h, declarations_spells h']

/-- A node and an edge, in plain lines and spread out between a comment, a blank line and a line that is
no declaration. -/
theorem parse_spread_out_lines :
    let lines := ["node A".toList, "A->B".toList]
    let plain := "node A\nA->B".toList
    let spread := "\u2003node A \r\n// a\x85\t\n A->B\x0b\x1c\u2028so".toList
    Spells lines plain ∧ Spells lines spread ∧ parse plain = parse spread := by
  intro lines plain spread
  have hfeed : ['\n'] ∈ lineEnds := by decide
  have hboth : ['\r', '\n'] ∈ lineEnds := by decide
  have hnext : ['\x85'] ∈ lineEnds := by decide
  have hseparator : ['\u2028'] ∈ lineEnds := by decide
  have hplain : Spells lines plain :=
    .line [] ['n', 'o', 'd', 'e', ' ', 'A'] [] nofun nofun hfeed
      (.last [] ['A', '-', '>', 'B'] [] nofun nofun)
  have hblanks {cs : List Char} (h : cs.all isBlank = true) : ∀ c ∈ cs, isBlank c = true := List.all_eq_true.mp h
  have hnote : Idle ['/', '/', ' ', 'a'] := ⟨unbroken_of_all rfl, .inr (.inl rfl)⟩
  have hblank : Idle ['\t'] := ⟨unbroken_of_all rfl, .inl rfl⟩
  have hword : Idle ['s', 'o'] := ⟨unbroken_of_all rfl, .inr (.inr ⟨[], rfl⟩)⟩
  have hspread : Spells lines spread := by
    refine .line ['\u2003'] ['n', 'o', 'd', 'e', ' ', 'A'] [' '] (hblanks rfl) (hblanks rfl) hboth ?_
    refine .idle _ hnote hnext (.idle _ hblank hfeed ?_)
    refine .line [' '] ['A', '-', '>', 'B'] ['\x0b', '\x1c'] (hblanks rfl) (hblanks rfl) hseparator ?_
    exact .lastIdle _ hword
  exact ⟨hplain, hspread, parse_reads_only_lines.2 lines plain spread hplain hspread⟩

end NodeLink.Source
