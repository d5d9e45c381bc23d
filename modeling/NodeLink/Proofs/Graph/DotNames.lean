import NodeLink.Proofs.Graph.DotReading
import NodeLink.Proofs.Outcome
import Mathlib.Data.List.TakeWhile

/-!
# Names in DOT

How a text that is written as a name is read again. In quotes it is itself as long as backslashes stand in pairs
before every quote and at its end; in angle brackets it is markup, if the brackets match.
-/

namespace NodeLink.Dot

/-- Backslashes stand in pairs before every quote and at the end. `odd` says whether the number of backslashes
read last is odd. -/
def Paired : Bool → List Char → Prop
  | odd, [] => odd = false
  | odd, c :: cs => if c = '"' then odd = false ∧ Paired false cs else Paired (c == '\\' && !odd) cs

/-- Backslashes stand in pairs at the end. -/
def EndsPaired : Bool → List Char → Prop
  | odd, [] => odd = false
  | odd, c :: cs => EndsPaired (c == '\\' && !odd) cs

/-- The bracket that closes the first one, behind as many open ones as said, is the last character. -/
def Closes : Nat → List Char → Prop
  | _, [] => False
  | depth, c :: cs =>
    if c = '<' then Closes (depth + 1) cs
    else if c = '>' then if depth = 0 then cs = [] else Closes (depth - 1) cs
    else Closes depth cs

/-- The text is one name as it is written: brackets match, or no backslash takes the last quote away. -/
def Whole (cs : List Char) : Prop := if isBracketed cs then Closes 0 (cs.drop 1) else EndsPaired false cs

/-- The text is no markup, and no backslash of it is lost. -/
structure Literal (cs : List Char) : Prop where
  bracketed : isBracketed cs = false
  paired : Paired false cs

/-- What is read of characters in quotes, unless a backslash takes the last quote away. -/
def unquoted? : Bool → List Char → Option (List Char)
  | odd, [] => if odd then none else some []
  | odd, c :: cs =>
    if c = '"' then (unquoted? false cs).map ('"' :: ·)
    else if odd then (unquoted? false cs).map fun more => '\\' :: c :: more
    else if c = '\\' then unquoted? true cs
    else (unquoted? false cs).map (c :: ·)

/-- The backslash that may stand in front of what is left. -/
def before (odd : Bool) : List Char := if odd then ['\\'] else []

variable {cs : List Char} {odd : Bool} {ts : List Token} {c : Char}

theorem unquoted?_of_paired (h : Paired odd cs) : unquoted? odd cs = some (before odd ++ cs) := by
  induction cs generalizing odd with
  | nil =>
    obtain rfl : odd = false := h
    rfl
  | cons c cs ih =>
    rw [Paired] at h
    rw [unquoted?]
    by_cases hquote : c = '"'
    · rw [if_pos hquote] at h
      obtain ⟨rfl, h⟩ := h
      simp [hquote, ih h, before]
    · rw [if_neg hquote] at h
      have hmore := ih h
      cases odd with
      | true =>
        rw [Bool.not_true, Bool.and_false] at hmore
        simp [hquote, hmore, before]
      | false =>
        by_cases hslash : c = '\\'
        · rw [hslash] at hmore
          simp [hslash, show unquoted? true cs = _ from hmore, before]
        · rw [beq_eq_false_iff_ne.mpr hslash, Bool.false_and] at hmore
          simp [hquote, hslash, hmore, before]

theorem length_unquoted? {r : List Char} (h : unquoted? odd cs = some r) :
    r.length ≤ cs.length + (before odd).length := by
  induction cs generalizing odd r with
  | nil =>
    cases odd with
    | true => cases h
    | false =>
      cases h
      exact Nat.le_refl 0
  | cons c cs ih =>
    rw [unquoted?] at h
    split_ifs at h
    · obtain ⟨more, hmore, rfl⟩ := Option.map_eq_some_iff.mp h
      have := ih hmore
      simp only [before, Bool.false_eq_true, if_false, List.length_nil, List.length_cons] at this ⊢
      omega
    · obtain ⟨more, hmore, rfl⟩ := Option.map_eq_some_iff.mp h
      have := ih hmore
      simp_all [before]
    · have := ih h
      simp_all [before]
    · obtain ⟨more, hmore, rfl⟩ := Option.map_eq_some_iff.mp h
      have := ih hmore
      simp_all [before]

/-- Where nothing is lost, backslashes stand in pairs. -/
theorem paired_of_unquoted? {r : List Char} (h : unquoted? odd cs = some r)
    (hlength : r.length = cs.length + (before odd).length) : Paired odd cs := by
  induction cs generalizing odd r with
  | nil =>
    cases odd with
    | true => cases h
    | false => rfl
  | cons c cs ih =>
    rw [unquoted?] at h
    rw [Paired]
    split_ifs at h ⊢
    · obtain ⟨more, hmore, rfl⟩ := Option.map_eq_some_iff.mp h
      have hle := length_unquoted? hmore
      cases odd with
      | true =>
        simp only [before, Bool.false_eq_true, if_false, if_true, List.length_nil, List.length_cons] at hle hlength
        omega
      | false => exact ⟨rfl, ih hmore (by simpa [before] using hlength)⟩
    · obtain ⟨more, hmore, rfl⟩ := Option.map_eq_some_iff.mp h
      simp_all [before]
    · simp_all [before]
    · obtain ⟨more, hmore, rfl⟩ := Option.map_eq_some_iff.mp h
      rename_i hquote hodd hslash
      rw [beq_eq_false_iff_ne.mpr hslash, Bool.false_and]
      exact ih hmore (by simpa [before, hodd] using hlength)

theorem unquoted?_isSome (h : EndsPaired odd cs) : ∃ r, unquoted? odd cs = some r := by
  induction cs generalizing odd with
  | nil =>
    obtain rfl : odd = false := h
    exact ⟨[], rfl⟩
  | cons c cs ih =>
    obtain ⟨r, hr⟩ := ih h
    rw [unquoted?]
    split_ifs with hquote hodd hslash
    · rw [hquote] at hr
      exact ⟨_, by rw [show ('"' == '\\' && !odd) = false from rfl] at hr; rw [hr]; rfl⟩
    · rw [hodd, Bool.not_true, Bool.and_false] at hr
      exact ⟨_, by rw [hr]; rfl⟩
    · simp only [Bool.not_eq_true] at hodd
      rw [hslash, hodd] at hr
      exact ⟨r, hr⟩
    · rw [beq_eq_false_iff_ne.mpr hslash, Bool.false_and] at hr
      exact ⟨_, by rw [hr]; rfl⟩

instance : DecidablePred Literal := fun cs =>
  decidable_of_iff (isBracketed cs = false ∧ unquoted? false cs = some cs)
    ⟨fun h => ⟨h.1, paired_of_unquoted? h.2 rfl⟩, fun h => ⟨h.bracketed, unquoted?_of_paired h.paired⟩⟩

/-! ### Reading a name -/

/-- Where a lexer stands in quotes, behind a backslash or not. -/
def inQuotes (odd : Bool) (read : List Char) : Spot := if odd then .escape read else .quoted read

theorem step_quoted (hquote : c ≠ '"') (hslash : c ≠ '\\') (read : List Char) :
    Lexer.step ⟨.quoted read, ts⟩ c = some ⟨.quoted (read ++ [c]), ts⟩ := by
  simp [Lexer.step, Lexer.goTo, hquote, hslash]

theorem step_escape (hquote : c ≠ '"') (hbreak : c ≠ '\n') (read : List Char) :
    Lexer.step ⟨.escape read, ts⟩ c = some ⟨.quoted (read ++ ['\\', c]), ts⟩ := by
  simp [Lexer.step, Lexer.goTo, hquote, hbreak]

theorem step_open (read : List Char) : Lexer.step ⟨.quoted read, ts⟩ '\\' = some ⟨.escape read, ts⟩ := by
  simp [Lexer.step, Lexer.goTo]

/-- Characters in quotes are read up to the last quote, which a backslash may be in front of. -/
theorem foldlM_escapeQuotes (hline : '\n' ∉ cs) (odd : Bool) (read : List Char) (ts : List Token) :
    ∃ odd' read', (escapeQuotes odd cs).foldlM Lexer.step ⟨inQuotes odd read, ts⟩ =
        some ⟨inQuotes odd' read', ts⟩ ∧
      (unquoted? odd cs).map (read ++ ·) = if odd' then none else some read' := by
  -- what goes along is whether the backslashes in front are odd in number, and what is read so far
  induction cs generalizing odd read with
  | nil =>
    refine ⟨odd, read, rfl, ?_⟩
    cases odd <;> simp [unquoted?]
  | cons c cs ih =>
    obtain ⟨hbreak, hline⟩ := not_or.mp (mt List.mem_cons.mpr hline)
    rw [escapeQuotes, unquoted?]
    by_cases hquote : c = '"'
    · obtain ⟨odd', read', hfold, hread⟩ := ih hline false (read ++ ['"'])
      have hopen : (if odd then ['"'] else ['\\', '"']).foldlM Lexer.step ⟨inQuotes odd read, ts⟩ =
          some ⟨inQuotes false (read ++ ['"']), ts⟩ := by cases odd <;> rfl
      refine ⟨odd', read', ?_, ?_⟩
      · rw [if_pos hquote, List.foldlM_append, hopen]
        exact hfold
      · rw [if_pos hquote, ← hread, Option.map_map]
        simp [Function.comp_def]
    · rw [if_neg hquote, if_neg hquote, List.foldlM_cons]
      cases odd with
      | true =>
        obtain ⟨odd', read', hfold, hread⟩ := ih hline false (read ++ ['\\', c])
        refine ⟨odd', read', ?_, ?_⟩
        · rw [inQuotes, if_pos rfl, step_escape hquote (Ne.symm hbreak), Bool.not_true, Bool.and_false]
          exact hfold
        · rw [if_pos rfl, ← hread, Option.map_map]
          simp [Function.comp_def]
      | false =>
        by_cases hslash : c = '\\'
        · obtain ⟨odd', read', hfold, hread⟩ := ih hline true read
          refine ⟨odd', read', ?_, by simpa [hslash] using hread⟩
          rw [hslash, inQuotes, if_neg Bool.false_ne_true, step_open]
          exact hfold
        · obtain ⟨odd', read', hfold, hread⟩ := ih hline false (read ++ [c])
          refine ⟨odd', read', ?_, ?_⟩
          · rw [inQuotes, if_neg Bool.false_ne_true, step_quoted hquote hslash, beq_eq_false_iff_ne.mpr hslash,
              Bool.false_and]
            exact hfold
          · rw [if_neg Bool.false_ne_true, if_neg hslash, ← hread, Option.map_map]
            simp [Function.comp_def]

/-- Characters in quotes. -/
def inside (cs : List Char) : List Char := '"' :: escapeQuotes false cs ++ ['"']

/-- Quotes are one name, unless a backslash takes the last one away. -/
theorem foldlM_inside (hline : '\n' ∉ cs) (ts : List Token) :
    (∃ r, unquoted? false cs = some r ∧
      (inside cs).foldlM Lexer.step ⟨.between, ts⟩ = some ⟨.between, ts ++ [.name (.text r)]⟩) ∨
    ∃ read, unquoted? false cs = none ∧
      (inside cs).foldlM Lexer.step ⟨.between, ts⟩ = some ⟨.quoted read, ts⟩ := by
  obtain ⟨odd, read, hfold, hread⟩ := foldlM_escapeQuotes hline false [] ts
  simp only [List.nil_append, Option.map_id'] at hread
  have hbegin : (inside cs).foldlM Lexer.step ⟨.between, ts⟩ = Lexer.step ⟨inQuotes odd read, ts⟩ '"' := by
    change (escapeQuotes false cs ++ ['"']).foldlM Lexer.step ⟨.quoted [], ts⟩ = _
    rw [List.foldlM_append]
    change (escapeQuotes false cs).foldlM Lexer.step ⟨inQuotes false [], ts⟩ >>= _ = _
    rw [hfold]
    simp
  cases odd with
  | false => exact Or.inl ⟨read, hread, hbegin⟩
  | true => exact Or.inr ⟨read ++ ['"'], hread, hbegin⟩

theorem reads_inside (hline : '\n' ∉ cs) {r : List Char} (h : unquoted? false cs = some r) :
    Reads (inside cs) [.name (.text r)] := by
  intro before
  rcases foldlM_inside hline before with ⟨r', hr', hfold⟩ | ⟨read, hnone, -⟩
  · obtain rfl : r = r' := Option.some.inj (h.symm.trans hr')
    exact ⟨_, hfold, stands_between _⟩
  · rw [hnone] at h
    cases h

theorem tokens_inside (hline : '\n' ∉ cs) (h : tokens (inside cs) = some ts) :
    ∃ r, unquoted? false cs = some r ∧ ts = [.name (.text r)] := by
  rcases foldlM_inside hline [] with ⟨r, hr, -⟩ | ⟨read, -, hfold⟩
  · rw [(reads_inside hline hr).tokens] at h
    exact ⟨r, hr, (Option.some.inj h).symm⟩
  · rw [tokens, hfold] at h
    cases h

/-! ### Words -/

@[elab_as_elim]
theorem forall_ascii {motive : Char → Prop} (c : Char) (hc : c.toNat < 128)
    (h : ∀ n < 128, motive (Char.ofNat n)) : motive c := by
  have hchar := h c.toNat hc
  rwa [Char.ofNat_toNat] at hchar

theorem isNameStart_cases (h : isNameStart c = true) :
    isSpace c = false ∧ isAsciiDigit c = false ∧ c ∉ ['"', '<', '-', '/', '.'] := by
  have hlow : c.toNat < 128 := by
    rw [isNameStart, Bool.and_eq_true, decide_eq_true_eq] at h
    exact h.1
  revert h
  refine forall_ascii c hlow ?_
  decide

theorem isAsciiDigit_cases (h : isAsciiDigit c = true) :
    isSpace c = false ∧ isNameChar c = true ∧ c ∉ ['"', '<', '-', '/', '.', '\\'] := by
  have hlow : c.toNat < 128 := by
    rw [isAsciiDigit, Bool.and_eq_true, decide_eq_true_eq, decide_eq_true_eq] at h
    exact Nat.lt_of_le_of_lt (show c.toNat ≤ 57 from h.2) (by decide)
  revert h
  refine forall_ascii c hlow ?_
  decide

theorem reads_word (h : isPlainName cs = true) : Reads cs [ofWord cs] := by
  cases cs with
  | nil => cases h
  | cons c cs =>
    rw [isPlainName, Bool.and_eq_true, List.all_eq_true] at h
    obtain ⟨hspace, hdigit, hother⟩ := isNameStart_cases h.1
    simp only [List.mem_cons, List.not_mem_nil, or_false, not_or] at hother
    obtain ⟨hquote, hless, hdash, hslash, hpoint⟩ := hother
    intro before
    have hstart : Lexer.step ⟨.between, before⟩ c = some ⟨.word [c], before⟩ := by
      simp [Lexer.step, Lexer.start, Lexer.goTo, hspace, hdigit, hquote, hless, hdash, hslash, hpoint, h.1]
    refine ⟨⟨.word (c :: cs), before⟩, ?_, ⟨fun d hd _ => ?_, rfl⟩⟩
    · rw [List.foldlM_cons, hstart]
      refine foldlM_collect (fun read => Lexer.mk (.word read) before) (fun d hd read => ?_) [c]
      simp [Lexer.step, Lexer.goTo, h.2 d hd]
    · rw [Lexer.step]
      simp only [hd, Bool.false_eq_true, if_false]
      rfl

/-! ### Numerals -/

theorem stands_numeral {read : List Char} (pointed : Bool) (h : read.any isAsciiDigit = true) :
    Stands (ts ++ [.name (.text read)]) ⟨.numeral read pointed, ts⟩ where
  next := by
    intro c hname hpoint
    have hdigit : isAsciiDigit c = false := by
      cases hc : isAsciiDigit c with
      | false => rfl
      | true =>
        rw [(isAsciiDigit_cases hc).2.1] at hname
        cases hname
    simp [Lexer.step, Lexer.put, hdigit, hpoint, hname, h]
  finished := by simp [Lexer.finished?, h]

theorem isNumeral_cases (h : isNumeral cs = true) : ∃ lead front rest, cs = lead ++ (front ++ rest) ∧
    (lead = [] ∨ lead = ['-']) ∧ (∀ c ∈ front, isAsciiDigit c = true) ∧
    (rest = [] ∧ front ≠ [] ∨
      ∃ more, rest = '.' :: more ∧ (∀ c ∈ more, isAsciiDigit c = true) ∧ (front ≠ [] ∨ more ≠ [])) := by
  obtain ⟨lead, hcs, hlead⟩ : ∃ lead, cs = lead ++ withoutMinus cs ∧ (lead = [] ∨ lead = ['-']) := by
    unfold withoutMinus
    split
    · exact ⟨['-'], rfl, Or.inr rfl⟩
    · exact ⟨[], rfl, Or.inl rfl⟩
  have hfront : ∀ c ∈ (withoutMinus cs).takeWhile isAsciiDigit, isAsciiDigit c = true :=
    fun c hc => List.mem_takeWhile_imp hc
  refine ⟨lead, _, (withoutMinus cs).dropWhile isAsciiDigit, ?_, hlead, hfront, ?_⟩
  · rwa [List.takeWhile_append_dropWhile]
  unfold isNumeral at h
  dsimp only at h
  split at h
  · rename_i hrest
    exact Or.inl ⟨hrest, by simpa using h⟩
  · rename_i more hrest
    rw [Bool.and_eq_true, List.all_eq_true, Bool.or_eq_true] at h
    exact Or.inr ⟨more, hrest, h.1, by simpa using h.2⟩
  · cases h

/-- Where a numeral goes on behind a minus or without one. -/
theorem foldlM_lead {lead : List Char} (h : lead = [] ∨ lead = ['-']) (ts : List Token) :
    ∃ l, lead.foldlM Lexer.step ⟨.between, ts⟩ = some l ∧
      l.step '.' = some ⟨.numeral (lead ++ ['.']) true, ts⟩ ∧
      ∀ d, isAsciiDigit d = true → l.step d = some ⟨.numeral (lead ++ [d]) false, ts⟩ := by
  rcases h with rfl | rfl
  · refine ⟨_, rfl, rfl, fun d hd => ?_⟩
    obtain ⟨hspace, -, hother⟩ := isAsciiDigit_cases hd
    simp only [List.mem_cons, List.not_mem_nil, or_false, not_or] at hother
    simp [Lexer.step, Lexer.start, Lexer.goTo, hspace, hd, hother]
  · refine ⟨_, rfl, rfl, fun d hd => ?_⟩
    obtain ⟨-, -, hother⟩ := isAsciiDigit_cases hd
    simp only [List.mem_cons, List.not_mem_nil, or_false, not_or] at hother
    have hgreater : d ≠ '>' := by
      rintro rfl
      cases hd
    simp [Lexer.step, Lexer.goTo, hd, hother, hgreater]

theorem reads_numeral (h : isNumeral cs = true) : Reads cs [.name (.text cs)] := by
  have hcollect (pointed : Bool) (ts : List Token) {ds : List Char} (hds : ∀ c ∈ ds, isAsciiDigit c = true)
      (read : List Char) :
      ds.foldlM Lexer.step ⟨.numeral read pointed, ts⟩ = some ⟨.numeral (read ++ ds) pointed, ts⟩ :=
    foldlM_collect (fun read => Lexer.mk (.numeral read pointed) ts)
      (fun c hc read => by simp [Lexer.step, Lexer.goTo, hds c hc]) read
  obtain ⟨lead, front, rest, rfl, hlead, hfront, hrest⟩ := isNumeral_cases h
  have hany : (lead ++ (front ++ rest)).any isAsciiDigit = true := by
    rcases hrest with ⟨-, hne⟩ | ⟨more, rfl, hmore, hne | hne⟩
    · obtain ⟨d, hd⟩ := List.exists_mem_of_ne_nil _ hne
      exact List.any_eq_true.mpr ⟨d, by simp [hd], hfront d hd⟩
    · obtain ⟨d, hd⟩ := List.exists_mem_of_ne_nil _ hne
      exact List.any_eq_true.mpr ⟨d, by simp [hd], hfront d hd⟩
    · obtain ⟨d, hd⟩ := List.exists_mem_of_ne_nil _ hne
      exact List.any_eq_true.mpr ⟨d, by simp [hd], hmore d hd⟩
  intro before
  obtain ⟨l, hl, hpoint, hdigit⟩ := foldlM_lead hlead before
  -- The digits behind the lead are read first, if there are any, and then the point and the digits behind it.
  have hread : ∃ pointed, (front ++ rest).foldlM Lexer.step l =
      some ⟨.numeral (lead ++ (front ++ rest)) pointed, before⟩ := by
    cases front with
    | nil =>
      rcases hrest with ⟨-, hne⟩ | ⟨more, rfl, hmore, -⟩
      · exact absurd rfl hne
      · refine ⟨true, ?_⟩
        rw [List.nil_append, List.foldlM_cons, hpoint, List.append_cons lead '.' more]
        exact hcollect true before hmore _
    | cons d ds =>
      obtain ⟨hd, hds⟩ := List.forall_mem_cons.mp hfront
      have hfirst : (d :: ds).foldlM Lexer.step l = some ⟨.numeral (lead ++ d :: ds) false, before⟩ := by
        rw [List.foldlM_cons, hdigit d hd, List.append_cons lead d ds]
        exact hcollect false before hds _
      rw [List.foldlM_append, hfirst]
      rcases hrest with ⟨rfl, -⟩ | ⟨more, rfl, hmore, -⟩
      · exact ⟨false, by simp⟩
      · refine ⟨true, ?_⟩
        have hgo : Lexer.step ⟨.numeral (lead ++ d :: ds) false, before⟩ '.' =
            some ⟨.numeral (lead ++ d :: ds ++ ['.']) true, before⟩ := rfl
        change ('.' :: more).foldlM Lexer.step ⟨.numeral (lead ++ d :: ds) false, before⟩ = _
        rw [List.foldlM_cons, hgo, ← List.append_assoc, List.append_cons _ '.' more]
        exact hcollect true before hmore _
  obtain ⟨pointed, hread⟩ := hread
  refine ⟨_, ?_, stands_numeral pointed hany⟩
  rw [List.foldlM_append, hl]
  exact hread

/-! ### Brackets -/

/-- What is read of brackets is what stands between the first and the last. -/
theorem foldlM_closes {depth : Nat} (h : Closes depth cs) (read : List Char) (ts : List Token) :
    cs.foldlM Lexer.step ⟨.markup read depth, ts⟩ =
      some ⟨.between, ts ++ [.name (.markup (read ++ cs.dropLast))]⟩ := by
  -- the last character is the bracket that closes the markup, so nothing is read of it
  induction cs generalizing depth read with
  | nil => cases h
  | cons c cs ih =>
    have hmore {depth : Nat} (h : Closes depth cs) : read ++ (c :: cs).dropLast = read ++ [c] ++ cs.dropLast := by
      cases cs with
      | nil => cases h
      | cons d cs => simp
    unfold Closes at h
    rw [List.foldlM_cons, Lexer.step]
    dsimp only
    by_cases hless : c = '<'
    · rw [if_pos hless] at h ⊢
      rw [hmore h, hless]
      exact ih h _
    · rw [if_neg hless] at h ⊢
      by_cases hgreater : c = '>'
      · rw [if_pos hgreater] at h ⊢
        cases depth with
        | zero =>
          obtain rfl : cs = [] := h
          simp [Lexer.put]
        | succ depth =>
          rw [hmore h, hgreater]
          exact ih h _
      · rw [if_neg hgreater] at h ⊢
        rw [hmore h]
        exact ih h _

theorem isBracketed_cases (h : isBracketed cs = true) : ∃ rest, cs = '<' :: rest := by
  unfold isBracketed at h
  split at h
  · exact ⟨_, rfl⟩
  · cases h

theorem reads_brackets (hb : isBracketed cs = true) (h : Closes 0 (cs.drop 1)) :
    Reads cs [.name (.markup (cs.drop 1).dropLast)] := by
  obtain ⟨rest, rfl⟩ := isBracketed_cases hb
  exact fun before => ⟨_, foldlM_closes h [] before, stands_between _⟩

theorem start_grows {l l' : Lexer} (h : l.start c = some l') : l.tokens <+: l'.tokens := by
  unfold Lexer.start at h
  split_ifs at h
  all_goals first
    | cases h
      exact List.prefix_refl _
    | obtain ⟨t, -, rfl⟩ := Option.map_eq_some_iff.mp h
      exact List.prefix_append _ _

theorem step_grows {l l' : Lexer} (h : l.step c = some l') : l.tokens <+: l'.tokens := by
  have hput (t : Token) (h : (l.put t).start c = some l') : l.tokens <+: l'.tokens :=
    (List.prefix_append _ _).trans (start_grows h)
  unfold Lexer.step at h
  split at h
  · exact start_grows h
  all_goals split_ifs at h
  all_goals first
    | exact hput _ h
    | cases h
      first
        | exact List.prefix_refl _
        | exact List.prefix_append _ _
    | skip
  split at h
  · cases h
    exact List.prefix_append _ _
  · cases h
    exact List.prefix_refl _

theorem finished_grows {l : Lexer} (h : l.finished? = some ts) : l.tokens <+: ts := by
  unfold Lexer.finished? at h
  split at h
  · cases h
    exact List.prefix_refl _
  · cases h
    exact List.prefix_refl _
  · cases h
    exact List.prefix_append _ _
  · split_ifs at h
    cases h
    exact List.prefix_append _ _
  · cases h

/-- The lexer is in the brackets with which the text begins, or has read them as markup. -/
def InMarkup (l : Lexer) : Prop :=
  (∃ read depth, l = ⟨.markup read depth, []⟩) ∨ ∃ markup, [.name (.markup markup)] <+: l.tokens

theorem InMarkup.step {l l' : Lexer} (hl : InMarkup l) (h : l.step c = some l') : InMarkup l' := by
  rcases hl with ⟨read, depth, rfl⟩ | ⟨markup, hmarkup⟩
  · simp only [Lexer.step] at h
    split_ifs at h
    · cases h
      exact Or.inl ⟨_, _, rfl⟩
    · cases depth with
      | zero =>
        cases h
        exact Or.inr ⟨read, List.prefix_refl _⟩
      | succ depth =>
        cases h
        exact Or.inl ⟨_, _, rfl⟩
    · cases h
      exact Or.inl ⟨_, _, rfl⟩
  · exact Or.inr ⟨markup, hmarkup.trans (step_grows h)⟩

theorem InMarkup.run {l l' : Lexer} (hl : InMarkup l) (h : cs.foldlM Lexer.step l = some l') : InMarkup l' := by
  induction cs generalizing l with
  | nil =>
    cases h
    exact hl
  | cons c cs ih =>
    obtain ⟨next, hnext, h⟩ := Option.bind_eq_some_iff.mp h
    exact ih (hl.step hnext) h

/-- No text is read of markup. -/
theorem tokens_brackets (hb : isBracketed cs = true) (text : List Char) :
    tokens cs ≠ some [.name (.text text)] := by
  obtain ⟨rest, rfl⟩ := isBracketed_cases hb
  intro h
  obtain ⟨l, hfold, hfinished⟩ := Option.bind_eq_some_iff.mp h
  have hopen : InMarkup ⟨.markup [] 0, []⟩ := Or.inl ⟨_, _, rfl⟩
  have hrest : rest.foldlM Lexer.step ⟨.markup [] 0, []⟩ = some l := hfold
  rcases hopen.run hrest with ⟨read, depth, rfl⟩ | ⟨markup, hmarkup⟩
  · cases hfinished
  · have hprefix := hmarkup.trans (finished_grows hfinished)
    simp at hprefix

/-! ### Names -/

theorem withoutFinalFeed_eq (hline : '\n' ∉ cs) : withoutFinalFeed cs = cs := by
  unfold withoutFinalFeed
  split
  · rename_i rest hrest
    have hmem : '\n' ∈ cs.reverse := by
      rw [hrest]
      exact List.mem_cons_self
    exact absurd (List.mem_reverse.mp hmem) hline
  · rfl

theorem quote_cases (hline : '\n' ∉ cs) (hb : isBracketed cs = false) :
    (isPlainName cs = true ∧ isKeyword cs = false ∧ quote cs = cs) ∨ (isNumeral cs = true ∧ quote cs = cs) ∨
      quote cs = inside cs := by
  unfold quote
  rw [hb, withoutFinalFeed_eq hline, if_neg Bool.false_ne_true]
  dsimp only
  split_ifs with h
  · rw [Bool.and_eq_true, Bool.or_eq_true, Bool.not_eq_true'] at h
    obtain ⟨hplain | hnumeral, hkeyword⟩ := h
    · exact Or.inl ⟨hplain, hkeyword, rfl⟩
    · exact Or.inr (Or.inl ⟨hnumeral, rfl⟩)
  · exact Or.inr (Or.inr rfl)

theorem endsPaired_of_clean (h : '\\' ∉ cs) : EndsPaired false cs := by
  induction cs with
  | nil => rfl
  | cons c cs ih =>
    obtain ⟨hc, hcs⟩ := not_or.mp (mt List.mem_cons.mpr h)
    rw [EndsPaired, beq_eq_false_iff_ne.mpr (Ne.symm hc), Bool.false_and]
    exact ih hcs

theorem Paired.ends (h : Paired odd cs) : EndsPaired odd cs := by
  induction cs generalizing odd with
  | nil => exact h
  | cons c cs ih =>
    rw [Paired] at h
    rw [EndsPaired]
    by_cases hquote : c = '"'
    · rw [if_pos hquote] at h
      rw [hquote]
      exact ih h.2
    · rw [if_neg hquote] at h
      exact ih h

theorem paired_of_clean (hquote : '"' ∉ cs) (h : '\\' ∉ cs) : Paired false cs := by
  induction cs with
  | nil => rfl
  | cons c cs ih =>
    obtain ⟨hc, hcs⟩ := not_or.mp (mt List.mem_cons.mpr h)
    obtain ⟨hq, hqs⟩ := not_or.mp (mt List.mem_cons.mpr hquote)
    rw [Paired, if_neg (Ne.symm hq), beq_eq_false_iff_ne.mpr (Ne.symm hc), Bool.false_and]
    exact ih hqs hcs

theorem Literal.whole (h : Literal cs) : Whole cs := by
  rw [Whole, h.bracketed, if_neg Bool.false_ne_true]
  exact h.paired.ends

theorem clean_of_isPlainName (h : isPlainName cs = true) : '"' ∉ cs ∧ '\\' ∉ cs := by
  cases cs with
  | nil => exact ⟨nofun, nofun⟩
  | cons c cs =>
    rw [isPlainName, Bool.and_eq_true, List.all_eq_true] at h
    have hall (d : Char) (hstart : isNameStart d = false) (hname : isNameChar d = false) : d ∉ c :: cs := by
      intro hd
      rcases List.mem_cons.mp hd with rfl | hd
      · rw [hstart] at h
        exact Bool.false_ne_true h.1
      · rw [h.2 d hd] at hname
        cases hname
    exact ⟨hall _ rfl rfl, hall _ rfl rfl⟩

theorem clean_of_isNumeral (h : isNumeral cs = true) : '"' ∉ cs ∧ '\\' ∉ cs := by
  obtain ⟨lead, front, rest, rfl, hlead, hfront, hrest⟩ := isNumeral_cases h
  have hall (d : Char) (hdigit : isAsciiDigit d = false) (hminus : d ≠ '-') (hpoint : d ≠ '.') :
      d ∉ lead ++ (front ++ rest) := by
    have hno {ds : List Char} (hds : ∀ c ∈ ds, isAsciiDigit c = true) : d ∉ ds := by
      intro hd
      rw [hds d hd] at hdigit
      cases hdigit
    rw [List.mem_append, List.mem_append]
    rintro (hd | hd | hd)
    · rcases hlead with rfl | rfl
      · cases hd
      · exact hminus (List.mem_singleton.mp hd)
    · exact hno hfront hd
    · rcases hrest with ⟨rfl, -⟩ | ⟨more, rfl, hmore, -⟩
      · cases hd
      · rcases List.mem_cons.mp hd with hd | hd
        · exact hpoint hd
        · exact hno hmore hd
  exact ⟨hall _ rfl (by decide) (by decide), hall _ rfl (by decide) (by decide)⟩

/-- What a whole text is read as. -/
def nameOf (cs : List Char) : Name :=
  if isBracketed cs then .markup (cs.drop 1).dropLast else .text ((unquoted? false cs).getD [])

/-- Exactly the literal texts stand for themselves. -/
theorem nameOf_eq_iff (h : Whole cs) : nameOf cs = .text cs ↔ Literal cs := by
  unfold Whole at h
  unfold nameOf
  split_ifs at h ⊢ with hb
  · exact ⟨nofun, fun hl => absurd hb (by rw [hl.bracketed]; exact Bool.false_ne_true)⟩
  · rw [Bool.not_eq_true] at hb
    obtain ⟨r, hr⟩ := unquoted?_isSome h
    rw [hr, Option.getD_some]
    constructor
    · intro heq
      obtain rfl : r = cs := Name.text.inj heq
      exact ⟨hb, paired_of_unquoted? hr rfl⟩
    · intro hl
      have hself : some r = some cs := hr.symm.trans (unquoted?_of_paired hl.paired)
      rw [Option.some.inj hself]

theorem reads_quote (hline : '\n' ∉ cs) (h : Whole cs) : Reads (quote cs) [.name (nameOf cs)] := by
  have hwhole := h
  unfold Whole at h
  split_ifs at h with hb
  · rw [quote, nameOf, if_pos hb, if_pos hb]
    exact reads_brackets hb h
  · rw [Bool.not_eq_true] at hb
    rcases quote_cases hline hb with ⟨hplain, hkeyword, heq⟩ | ⟨hnumeral, heq⟩ | heq
    · obtain ⟨hquote, hslash⟩ := clean_of_isPlainName hplain
      have hword := reads_word hplain
      rw [ofWord, hkeyword] at hword
      rwa [heq, (nameOf_eq_iff hwhole).mpr ⟨hb, paired_of_clean hquote hslash⟩]
    · obtain ⟨hquote, hslash⟩ := clean_of_isNumeral hnumeral
      rw [heq, (nameOf_eq_iff hwhole).mpr ⟨hb, paired_of_clean hquote hslash⟩]
      exact reads_numeral hnumeral
    · obtain ⟨r, hr⟩ := unquoted?_isSome h
      rw [heq, nameOf, hb, if_neg Bool.false_ne_true, hr]
      exact reads_inside hline hr

theorem Literal.reads (hline : '\n' ∉ cs) (h : Literal cs) : Reads (quote cs) [.name (.text cs)] := by
  have hread := reads_quote hline h.whole
  rwa [(nameOf_eq_iff h.whole).mpr h] at hread

/-- Exactly the literal texts are read as the names that they are. -/
theorem tokens_quote_iff (hline : '\n' ∉ cs) : tokens (quote cs) = some [.name (.text cs)] ↔ Literal cs := by
  refine ⟨fun h => ?_, fun h => (h.reads hline).tokens⟩
  cases hb : isBracketed cs with
  | true =>
    rw [quote, if_pos hb] at h
    exact absurd h (tokens_brackets hb cs)
  | false =>
    refine ⟨hb, ?_⟩
    rcases quote_cases hline hb with ⟨hplain, -, -⟩ | ⟨hnumeral, -⟩ | heq
    · obtain ⟨hquote, hslash⟩ := clean_of_isPlainName hplain
      exact paired_of_clean hquote hslash
    · obtain ⟨hquote, hslash⟩ := clean_of_isNumeral hnumeral
      exact paired_of_clean hquote hslash
    · rw [heq] at h
      obtain ⟨r, hr, hname⟩ := tokens_inside hline h
      cases hname
      exact paired_of_unquoted? hr rfl

end NodeLink.Dot
