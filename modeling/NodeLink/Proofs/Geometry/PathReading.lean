import NodeLink.Proofs.Geometry.Totality
import NodeLink.Proofs.Text.Cutting
import NodeLink.Proofs.Text.Digits
import NodeLink.Proofs.Text.Parts

/-!
# Path data that is read back

Whatever double it is, its compact text is a name or digits with a point among them, and is read as a double again.
So in the text of an outline every stretch between blanks, commas and letters is a number or empty, and path data
can be made shorter.
-/

namespace NodeLink

open Text

variable {cs front places part rest : List Char}

/-! ## The text of a number -/

namespace Number

/-- The characters that take part in the text of a number. -/
def isNumeral (c : Char) : Bool := isDigit c || c == '.' || c == '-' || ['n', 'a', 'i', 'f'].contains c

theorem not_isBlank_of_isNumeral {c : Char} (h : isNumeral c = true) : isBlank c = false := by
  simp only [isNumeral, Bool.or_eq_true, beq_iff_eq, List.contains_iff_mem, List.mem_cons, List.not_mem_nil,
    or_false] at h
  rcases h with ((hdigit | rfl) | rfl) | rfl | rfl | rfl | rfl
  · exact not_isBlank_of_isDigit hdigit
  all_goals decide

theorem trimNumber_eq (h : ∀ c ∈ cs, isBlank c = false) : trimNumber cs = cs := by
  have hstart (ds : List Char) (hds : ∀ c ∈ ds, isBlank c = false) :
      ds.dropWhile (fun c => isBlank c && !(28 ≤ c.toNat && c.toNat ≤ 31)) = ds := by
    cases ds with
    | nil => rfl
    | cons d ds => simp [hds d (by simp)]
  simp only [trimNumber]
  rw [hstart cs h, hstart cs.reverse (by simpa using h), List.reverse_reverse]

theorem digitRunFrom_append (h : ∀ c ∈ front, isDigit c = true)
    (hr : ∀ c ∈ rest.head?, isDigit c = false ∧ c ≠ '_') (after : Bool) :
    digitRunFrom after (front ++ rest) = (front, rest) := by
  induction front generalizing after with
  | nil =>
    cases rest with
    | nil => rfl
    | cons c rest =>
      obtain ⟨hc, hne⟩ := hr c rfl
      simp [digitRunFrom, hc, hne]
  | cons c front ih =>
    obtain ⟨hc, hfront⟩ := List.forall_mem_cons.mp h
    simp [digitRunFrom, hc, ih hfront]

theorem takeSign_signed {c : Char} (hc : isDigit c = true) (neg : Bool) :
    takeSign (FixedText.signed neg (c :: cs)) = (neg, c :: cs) := by
  cases neg with
  | true => rfl
  | false =>
    change takeSign (c :: cs) = _
    unfold takeSign
    split
    · rename_i heq
      cases heq
      cases hc
    · rename_i heq
      cases heq
      cases hc
    · rfl

/-- Digits in front, or behind a point, are what a decimal stands for, with a place for each behind the point. -/
theorem decimalParts?_eq {tail : List Char} (hfront : ∀ c ∈ front, c.isDigit = true)
    (h : front ≠ [] ∧ tail = [] ∧ places = [] ∨
      tail = '.' :: places ∧ places ≠ [] ∧ ∀ c ∈ places, c.isDigit = true) :
    decimalParts? (front ++ tail) = some (digitsValue (front ++ places), -(places.length : Int)) := by
  have hdigits {cs : List Char} (hcs : ∀ c ∈ cs, c.isDigit = true) : ∀ c ∈ cs, isDigit c = true :=
    fun c hc => isDigit_of_ascii (hcs c hc)
  unfold decimalParts? digitRun
  obtain ⟨hne, rfl, rfl⟩ | ⟨rfl, hne, hplaces⟩ := h
  · rw [digitRunFrom_append (hdigits hfront) (by simp)]
    simp [hne, exponentPart?]
  · have hpoint : isDigit '.' = false ∧ '.' ≠ '_' := by decide
    have hend : digitRunFrom false (places ++ []) = (places, []) :=
      digitRunFrom_append (hdigits hplaces) (by simp) false
    rw [List.append_nil] at hend
    rw [digitRunFrom_append (hdigits hfront) (by simpa using hpoint)]
    simp [hne, hend, exponentPart?]

/-- Digits in front, and none or some more behind a point. -/
structure IsDecimal (front tail : List Char) : Prop where
  digits : ∀ c ∈ front, c.isDigit = true
  ne : front ≠ []
  places : tail = [] ∨ ∃ places, tail = '.' :: places ∧ places ≠ [] ∧ ∀ c ∈ places, c.isDigit = true

variable {tail : List Char}

theorem isSome_decimal? (h : IsDecimal front tail) (neg : Bool) : (decimal? neg (front ++ tail)).isSome = true := by
  rw [decimal?, Option.isSome_map]
  obtain hwhole | ⟨places, hpoint⟩ := h.places
  · rw [decimalParts?_eq h.digits (.inl ⟨h.ne, hwhole, rfl⟩)]
    rfl
  · rw [decimalParts?_eq h.digits (.inr hpoint)]
    rfl

theorem isNumeral_of_isDecimal (h : IsDecimal front tail) : ∀ c ∈ front ++ tail, isNumeral c = true := by
  have hdigit {c : Char} (hc : c.isDigit = true) : isNumeral c = true := by simp [isNumeral, isDigit_of_ascii hc]
  intro c hc
  rcases List.mem_append.mp hc with hc | hc
  · exact hdigit (h.digits c hc)
  · obtain rfl | ⟨places, rfl, -, hplaces⟩ := h.places
    · cases hc
    · rcases List.mem_cons.mp hc with rfl | hc
      · decide
      · exact hdigit (hplaces c hc)

theorem isSome_readFloat? (h : IsDecimal front tail) (neg : Bool) :
    (readFloat? (FixedText.signed neg (front ++ tail))).isSome = true := by
  have hplain : ∀ c ∈ FixedText.signed neg (front ++ tail), isBlank c = false := by
    have hbody : ∀ c ∈ front ++ tail, isBlank c = false := fun c hc =>
      not_isBlank_of_isNumeral (isNumeral_of_isDecimal h c hc)
    cases neg with
    | false => exact hbody
    | true => exact List.forall_mem_cons.mpr ⟨by decide, hbody⟩
  have hsign : takeSign (FixedText.signed neg (front ++ tail)) = (neg, front ++ tail) := by
    obtain ⟨c, cs, rfl⟩ := List.exists_cons_of_ne_nil h.ne
    exact takeSign_signed (isDigit_of_ascii (h.digits c (by simp))) neg
  unfold readFloat?
  rw [trimNumber_eq hplain, hsign]
  dsimp only
  split
  · rfl
  · split
    · rfl
    · exact isSome_decimal? h neg

/-- A text of a number: it has no other characters, and is read as a double. -/
structure IsNumberText (cs : List Char) : Prop where
  numeral : ∀ c ∈ cs, isNumeral c = true
  reads : (readFloat? cs).isSome = true

theorem isNumberText_signed (h : IsDecimal front tail) (neg : Bool) :
    IsNumberText (FixedText.signed neg (front ++ tail)) where
  numeral := by
    have hbody := isNumeral_of_isDecimal h
    cases neg with
    | false => exact hbody
    | true => exact List.forall_mem_cons.mpr ⟨by decide, hbody⟩
  reads := isSome_readFloat? h neg

end Number

namespace FixedText

theorem signed_append (neg : Bool) (front tail : List Char) : signed neg (front ++ tail) = signed neg front ++ tail := by
  cases neg <;> rfl

theorem isDigit_padLeft (width n : Nat) : ∀ c ∈ padLeft width (digitsOf n), c.isDigit = true := by
  intro c hc
  rcases List.mem_append.mp hc with hc | hc
  · rw [List.eq_of_mem_replicate hc]
    decide
  · exact isDigit_digitsOf n c hc

theorem digitsValue_padLeft (width n : Nat) : digitsValue (padLeft width (digitsOf n)) = n := by
  have hzeros (k : Nat) (cs : List Char) : digitsValue (List.replicate k '0' ++ cs) = digitsValue cs := by
    induction k with
    | zero => rfl
    | succ k ih => exact ih
  rw [padLeft, hzeros, digitsValue_digitsOf]

/-- With decimal places there are digits on both sides of a point, which together are the units of the last. -/
theorem placed_succ (places units : Nat) : ∃ front ds, placed (places + 1) units = front ++ '.' :: ds ∧
    (∀ c ∈ front ++ ds, c.isDigit = true) ∧ front ≠ [] ∧ ds.length = places + 1 ∧
      digitsValue (front ++ ds) = units := by
  have hdigits := isDigit_padLeft (places + 1 + 1) units
  have hvalue := digitsValue_padLeft (places + 1 + 1) units
  have hlength : places + 1 + 1 ≤ (padLeft (places + 1 + 1) (digitsOf units)).length := by
    simp only [padLeft, List.length_append, List.length_replicate]
    omega
  unfold placed
  dsimp only
  rw [if_neg (Nat.succ_ne_zero places)]
  generalize padLeft (places + 1 + 1) (digitsOf units) = digits at *
  refine ⟨_, _, rfl, ?_, fun hnil => ?_, ?_, ?_⟩
  · rwa [List.take_append_drop]
  · have hzero := congrArg List.length hnil
    simp only [List.length_take, List.length_nil] at hzero
    omega
  · simp only [List.length_drop]
    omega
  · rwa [List.take_append_drop]

end FixedText

namespace CompactText

open Number

/-- Places behind a point, which goes with them if there are none. -/
def pointed (places : List Char) : List Char := if places = [] then [] else '.' :: places

theorem isDecimal_pointed (h : ∀ c ∈ front ++ places, c.isDigit = true) (hne : front ≠ []) :
    IsDecimal front (pointed places) := by
  obtain ⟨hfront, hplaces⟩ := List.forall_mem_append.mp h
  refine ⟨hfront, hne, ?_⟩
  unfold pointed
  split
  · exact .inl rfl
  · rename_i hsome
    exact .inr ⟨places, rfl, hsome, hplaces⟩

/-- Zeros at the end can be taken from what stands in front of them. -/
theorem exists_cut (ds : List Char) :
    ∃ places k, ds = places ++ List.replicate k '0' ∧ places.getLast? ≠ some '0' := by
  induction ds using List.reverseRecOn with
  | nil => exact ⟨[], 0, rfl, nofun⟩
  | append_singleton ds d ih =>
    by_cases hd : d = '0'
    · obtain ⟨places, k, rfl, hlast⟩ := ih
      refine ⟨places, k + 1, ?_, hlast⟩
      rw [hd, List.append_assoc, ← List.replicate_succ']
    · exact ⟨ds ++ [d], 0, (List.append_nil _).symm, by simpa using hd⟩

/-- Zeros behind the places go, and the point where nothing is left behind it. -/
theorem withoutEndZeros_zeros (hdigits : ∀ c ∈ front ++ places, c.isDigit = true) (hne : front ≠ [])
    (hlast : places.getLast? ≠ some '0') (neg : Bool) (k : ℕ) :
    withoutEndZeros (FixedText.signed neg (front ++ '.' :: (places ++ List.replicate k '0'))) =
      FixedText.signed neg (front ++ pointed places) := by
  have hzeros (cs : List Char) : withoutEndZeros (cs ++ List.replicate k '0') = withoutEndZeros cs := by
    simp [withoutEndZeros]
  have hdigit {cs : List Char} {c : Char} (hc : c.isDigit = true) (hzero : c ≠ '0') :
      withoutEndZeros (cs ++ [c]) = cs ++ [c] := by
    have hpoint : c ≠ '.' := ne_of_test hc (by decide)
    simp [withoutEndZeros, hzero, hpoint]
  have hpoint {cs : List Char} {c : Char} (hc : c.isDigit = true) :
      withoutEndZeros (cs ++ [c] ++ ['.']) = cs ++ [c] := by
    have hpoint : c ≠ '.' := ne_of_test hc (by decide)
    simp [withoutEndZeros, hpoint]
  obtain ⟨initial, first, rfl⟩ := (List.eq_nil_or_concat' front).resolve_left hne
  rcases List.eq_nil_or_concat' places with rfl | ⟨more, last, rfl⟩
  · have hsplit : FixedText.signed neg (initial ++ [first] ++ '.' :: ([] ++ List.replicate k '0')) =
        FixedText.signed neg initial ++ [first] ++ ['.'] ++ List.replicate k '0' := by
      simp [FixedText.signed_append]
    rw [hsplit, hzeros, hpoint (hdigits first (by simp)), pointed, if_pos rfl, List.append_nil, FixedText.signed_append]
  · have hsplit : FixedText.signed neg (initial ++ [first] ++ '.' :: (more ++ [last] ++ List.replicate k '0')) =
        FixedText.signed neg (initial ++ [first] ++ '.' :: more) ++ [last] ++ List.replicate k '0' := by
      simp [FixedText.signed_append]
    rw [hsplit, hzeros, hdigit (hdigits last (by simp)) (by simpa using hlast), pointed, if_neg (by simp)]
    simp [FixedText.signed_append]

theorem digitsValue_zeros (cs : List Char) (k : ℕ) :
    digitsValue (cs ++ List.replicate k '0') = digitsValue cs * 10 ^ k := by
  induction k with
  | zero => simp
  | succ k ih =>
    rw [List.replicate_succ', ← List.append_assoc, digitsValue_concat, ih, Nat.pow_succ]
    change 10 * (digitsValue cs * 10 ^ k) + 0 = _
    rw [Nat.add_zero, Nat.mul_comm, Nat.mul_assoc]

/-- Thousandths are digits on both sides of a point, which count the same without the zeros at the end. -/
theorem placed_cut (units : Nat) : ∃ front places k,
    FixedText.placed 3 units = front ++ '.' :: (places ++ List.replicate k '0') ∧
      (∀ c ∈ front ++ places, c.isDigit = true) ∧ front ≠ [] ∧ places.getLast? ≠ some '0' ∧
        places.length + k = 3 ∧ digitsValue (front ++ places) * 10 ^ k = units := by
  obtain ⟨front, ds, hplaced, hdigits, hne, hlength, hvalue⟩ := FixedText.placed_succ 2 units
  obtain ⟨places, k, rfl, hlast⟩ := exists_cut ds
  rw [← List.append_assoc] at hdigits hvalue
  refine ⟨front, places, k, hplaced, fun c hc => hdigits c (List.mem_append_left _ hc), hne, hlast, ?_, ?_⟩
  · simpa using hlength
  · rw [← hvalue, digitsValue_zeros]

theorem isDecimal_viewText (neg : Bool) (m : Nat) (e : Int) :
    ∃ s front tail, viewText (.finite neg m e) = FixedText.signed s (front ++ tail) ∧ IsDecimal front tail := by
  obtain ⟨front, places, k, hplaced, hdigits, hne, hlast, -, -⟩ :=
    placed_cut (FixedText.unitsOf 3 (Binary64.fraction m e).1 (Binary64.fraction m e).2)
  have htext := withoutEndZeros_zeros hdigits hne hlast neg k
  have hview : FixedText.fixedView 3 (.finite neg m e) =
      FixedText.signed neg (front ++ '.' :: (places ++ List.replicate k '0')) :=
    congrArg (FixedText.signed neg) hplaced
  unfold viewText
  dsimp only
  rw [hview, htext]
  split
  · exact ⟨false, ['0'], [], rfl, List.all_eq_true.mp rfl, by decide, .inl rfl⟩
  · exact ⟨neg, front, pointed places, rfl, isDecimal_pointed hdigits hne⟩

theorem isNumberText_viewText (v : FloatView) : IsNumberText (viewText v) := by
  cases v with
  | finite neg m e =>
    obtain ⟨s, front, tail, htext, hdecimal⟩ := isDecimal_viewText neg m e
    rw [htext]
    exact isNumberText_signed hdecimal s
  | undefined => exact ⟨List.all_eq_true.mp rfl, rfl⟩
  | infinite neg => cases neg <;> exact ⟨List.all_eq_true.mp rfl, rfl⟩

end CompactText

theorem Value.compact_succeeds {v : Value} (h : v.Fits) : Succeeds v.compact fun _ => True := by
  obtain ⟨x, rfl⟩ | ⟨n, rfl, hn⟩ := h
  · exact ⟨_, rfl, trivial⟩
  · exact ⟨_, by rw [Value.compact, Value.written, if_pos hn], trivial⟩

theorem Value.isNumberText_compact {v : Value} (h : v.compact = .ok cs) : Number.IsNumberText cs := by
  cases v with
  | real x =>
    cases h
    exact CompactText.isNumberText_viewText _
  | whole n =>
    simp only [Value.compact, Value.written] at h
    split at h
    · cases h
      exact CompactText.isNumberText_viewText _
    · cases h
  | other value =>
    cases value <;> cases h
  | fault cause => cases h

/-! ## Path data -/

namespace Path

open PathCommand Number

/-- What numbers of path data stand between. -/
def isMark (c : Char) : Bool := isBlank c || c == ',' || isLetter c

/-- Every stretch between marks is a number, or empty. -/
def Readable (cs : List Char) : Prop :=
  ∀ part ∈ splitAtEach isMark cs, part.isEmpty = false → (readFloat? part).isSome = true

theorem readable_append_cons {c : Char} (hc : isMark c = true) {before after : List Char} :
    Readable (before ++ c :: after) ↔ Readable before ∧ Readable after := by
  unfold Readable
  rw [splitAtEach_append_cons hc]
  simp only [List.mem_append]
  constructor
  · exact fun h => ⟨fun part hp => h part (Or.inl hp), fun part hp => h part (Or.inr hp)⟩
  · rintro ⟨hb, ha⟩ part (hp | hp)
    · exact hb part hp
    · exact ha part hp

theorem readable_number (h : IsNumberText cs) : Readable cs := by
  have hplain : ∀ c ∈ cs, isMark c = false := by
    intro c hc
    have hnumeral := h.numeral c hc
    have hcomma : (c == ',') = false := beq_false_of_ne (ne_of_test hnumeral (by decide))
    have hletter : isLetter c = false := by
      simp only [isLetter, Bool.or_eq_false_iff]
      exact ⟨⟨⟨⟨beq_false_of_ne (ne_of_test hnumeral (by decide)), beq_false_of_ne (ne_of_test hnumeral (by decide))⟩,
        beq_false_of_ne (ne_of_test hnumeral (by decide))⟩, beq_false_of_ne (ne_of_test hnumeral (by decide))⟩,
        beq_false_of_ne (ne_of_test hnumeral (by decide))⟩
    simp [isMark, not_isBlank_of_isNumeral hnumeral, hcomma, hletter]
  intro part hp _
  rw [splitAtEach_of_none hplain, List.mem_singleton] at hp
  rw [hp]
  exact h.reads

theorem readable_letter {α : Type} (c : PathCommand α) : Readable [c.letter] := by
  intro part hp hne
  have hnone : splitAtEach isMark [c.letter] = [[], []] := by cases c <;> rfl
  rw [hnone] at hp
  simp only [List.mem_cons, List.not_mem_nil, or_false, or_self] at hp
  rw [hp] at hne
  cases hne

/-- What holds of nothing and of what is glued together holds of texts that are joined. -/
theorem joined_induction {P : List Char → Prop} {separator : List Char} (nothing : P [])
    (glued : ∀ cs more, P cs → P more → P (cs ++ separator ++ more)) {texts : List (List Char)}
    (h : ∀ cs ∈ texts, P cs) : P (joined separator texts) := by
  fun_induction joined separator texts with
  | case1 => exact nothing
  | case2 cs => exact h cs (by simp)
  | case3 cs more _ ih =>
    obtain ⟨hcs, hmore⟩ := List.forall_mem_cons.mp h
    exact glued cs _ hcs (ih hmore)

theorem readable_nil : Readable [] := by
  intro part hp hne
  rw [List.mem_singleton.mp hp] at hne
  cases hne

theorem readable_joined {texts : List (List Char)} (h : ∀ cs ∈ texts, Readable cs) : Readable (joined [' '] texts) := by
  refine joined_induction readable_nil (fun cs more hcs hmore => ?_) h
  rw [List.append_assoc, List.singleton_append]
  exact (readable_append_cons (by decide)).mpr ⟨hcs, hmore⟩

theorem readable_text {o : Outline Value} (h : text o = .ok cs) : Readable cs := by
  have hpoint {p : Point Value} {cs : List Char} (h : pointText p = .ok cs) : Readable cs := by
    obtain ⟨x, hx, h⟩ := bind_eq_ok h
    obtain ⟨y, hy, h⟩ := bind_eq_ok h
    cases h
    exact (readable_append_cons (by decide)).mpr
      ⟨readable_number (Value.isNumberText_compact hx), readable_number (Value.isNumberText_compact hy)⟩
  have hcommand {c : PathCommand Value} {cs : List Char} (h : commandText c = .ok cs) : Readable cs := by
    obtain ⟨points, hp, h⟩ := bind_eq_ok h
    cases h
    exact readable_joined (List.forall_mem_cons.mpr ⟨readable_letter c, mapM_gives hpoint hp⟩)
  obtain ⟨commands, hc, h⟩ := bind_eq_ok h
  cases h
  exact readable_joined (mapM_gives hcommand hc)

theorem pointText_succeeds {p : Point Value} (hp : p.IsDouble) : Succeeds (pointText p) fun _ => True := by
  apply (Value.compact_succeeds hp.x.fits).bind
  intro x _
  apply (Value.compact_succeeds hp.y.fits).bind
  intro y _
  exact .pure trivial

theorem commandText_succeeds {c : PathCommand Value} (hc : c.IsDouble) : Succeeds (commandText c) fun _ => True := by
  have hpoints : Succeeds (c.points.mapM pointText) fun texts => ∀ cs ∈ texts, True :=
    .mapM fun p hp => pointText_succeeds (hc p hp)
  apply hpoints.bind
  intro texts _
  exact .pure trivial

theorem text_succeeds {o : Outline Value} (ho : o.IsDouble) : Succeeds (text o) Readable := by
  have hcommands : Succeeds (o.mapM commandText) fun texts => ∀ cs ∈ texts, True :=
    .mapM fun c hc => commandText_succeeds (ho c hc)
  obtain ⟨texts, htexts, -⟩ := hcommands
  have htext : text o = .ok (joined [' '] texts) := by
    rw [text, htexts]
    rfl
  exact ⟨_, htext, readable_text htext⟩

theorem mem_pieces {piece : Char × List Char} (h : piece ∈ pieces cs) :
    ∃ before after, cs = before ++ piece.1 :: after ∧ isLetter piece.1 = true ∧
      piece.2 = after.takeWhile fun d => !isLetter d := by
  induction cs with
  | nil => cases h
  | cons c cs ih =>
    have hlater (h : piece ∈ pieces cs) : ∃ before after, c :: cs = before ++ piece.1 :: after ∧
        isLetter piece.1 = true ∧ piece.2 = after.takeWhile fun d => !isLetter d := by
      obtain ⟨before, after, rfl, hrest⟩ := ih h
      exact ⟨c :: before, after, rfl, hrest⟩
    rw [pieces] at h
    split at h
    · rename_i hc
      rcases List.mem_cons.mp h with rfl | h
      · exact ⟨[], cs, rfl, hc, rfl⟩
      · exact hlater h
    · exact hlater h

/-- What stands between two letters of readable path data is readable, and has no letter. -/
theorem readable_piece (h : Readable cs) {piece : Char × List Char} (hp : piece ∈ pieces cs) :
    Readable piece.2 ∧ ∀ c ∈ piece.2, isLetter c = false := by
  obtain ⟨before, after, rfl, hletter, hrest⟩ := mem_pieces hp
  have hmark {c : Char} (hc : isLetter c = true) : isMark c = true := by simp [isMark, hc]
  have hafter := ((readable_append_cons (hmark hletter)).mp h).2
  rw [hrest]
  constructor
  · cases hend : after.dropWhile fun d => !isLetter d with
    | nil =>
      have hwhole := List.takeWhile_append_dropWhile (p := fun d => !isLetter d) (l := after)
      rw [hend, List.append_nil] at hwhole
      rwa [hwhole]
    | cons d more =>
      have hd : isLetter d = true := by
        have hfirst := List.head?_dropWhile_not (fun d => !isLetter d) after
        rw [hend] at hfirst
        simpa using hfirst
      have hwhole := List.takeWhile_append_dropWhile (p := fun d => !isLetter d) (l := after)
      rw [hend] at hwhole
      rw [← hwhole] at hafter
      exact ((readable_append_cons (hmark hd)).mp hafter).1
  · intro c hc
    simpa using List.mem_takeWhile_imp hc

theorem number_eq {α : Type} [Coordinate α] {x : α} (h : Coordinate.read? part = some x) : number part = .ok x := by
  rw [number, h]

theorem numbers_succeeds (h : Readable cs) (hplain : ∀ c ∈ cs, isLetter c = false) :
    Succeeds (numbers cs : Except Fault (List Float)) fun _ => True := by
  have hparts : splitAtEach (fun c => isBlank c || c == ',') cs = splitAtEach isMark cs :=
    splitAtEach_congr fun c hc => by simp [isMark, hplain c hc]
  have hread : Succeeds (numbers cs : Except Fault (List Float)) fun xs => ∀ x ∈ xs, True := by
    refine Succeeds.mapM fun part hp => ?_
    obtain ⟨hp, hne⟩ := List.mem_filter.mp hp
    rw [hparts] at hp
    obtain ⟨x, hx⟩ := Option.isSome_iff_exists.mp (h part hp (by simpa using hne))
    exact ⟨x, number_eq hx, trivial⟩
  exact hread.mono fun _ _ => trivial

theorem readPiece_succeeds (h : Readable cs) {piece : Char × List Char} (hp : piece ∈ pieces cs) :
    Succeeds (readPiece piece : Except Fault (Option (PathCommand Float))) fun _ => True := by
  obtain ⟨hreadable, hplain⟩ := readable_piece h hp
  refine .ite (fun _ => .pure trivial) fun _ => ?_
  apply (numbers_succeeds hreadable hplain).bind
  intro xs _
  exact .pure trivial

theorem optimize_succeeds (h : Readable cs) : Succeeds (optimize cs) fun _ => True := by
  have hpieces : Succeeds ((pieces cs).mapM readPiece : Except Fault (List (Option (PathCommand Float)))) fun commands => ∀ c ∈ commands, True :=
    .mapM fun piece hp => readPiece_succeeds h hp
  refine .ite (fun _ => .pure trivial) fun _ => ?_
  apply Succeeds.bind (P := fun _ => True)
  · apply hpieces.bind
    intro commands _
    exact .pure trivial
  · intro commands _
    exact .pure trivial

theorem shortened_succeeds {o : Outline Value} (ho : o.IsDouble) : Succeeds (text o >>= optimize) fun _ => True := by
  apply (text_succeeds ho).bind
  intro cs hcs
  exact optimize_succeeds hcs

end Path

end NodeLink
