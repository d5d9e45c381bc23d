import NodeLink.Proofs.Geometry.PathFollowing

/-!
# The texts of outlines

Outlines are made of loops: a band or a ribbon for the body of an edge, and a triangle for each head. Every loop
begins with a move and ends where it is closed. If the coordinates of an outline are numbers, its text is path data
of capital letters and plain decimals.
-/

namespace NodeLink

def FloatView.isNumber : FloatView → Bool
  | .finite .. => true
  | _ => false

/-- Whether a value is written as a double that is a number. -/
def Value.isNumber : Value → Bool
  | .real x => (Binary64.view x).isNumber
  | .whole n => Value.wholeFits n && (Binary64.view (Binary64.ofInt n)).isNumber
  | _ => false

def Point.isNumber (p : Point Value) : Bool := p.x.isNumber && p.y.isNumber

def Outline.isNumber (o : Outline Value) : Bool := o.all fun c => c.points.all Point.isNumber

namespace PathCommand

variable {α : Type} [Scalar α] {c c' : PathCommand α}

theorem letter_settle (h : c.settle = .ok c') : c'.letter = c.letter := by
  cases c with
  | move p | line p =>
    obtain ⟨p', -, h⟩ := bind_eq_ok h
    cases h
    rfl
  | quadratic a p =>
    obtain ⟨a', -, h⟩ := bind_eq_ok h
    obtain ⟨p', -, h⟩ := bind_eq_ok h
    cases h
    rfl
  | cubic a b p =>
    obtain ⟨a', -, h⟩ := bind_eq_ok h
    obtain ⟨b', -, h⟩ := bind_eq_ok h
    obtain ⟨p', -, h⟩ := bind_eq_ok h
    cases h
    rfl
  | close =>
    cases h
    rfl

end PathCommand

namespace Outline

/-! ## Loops -/

/-- The letters of commands that make up loops: the first is that of a move, and after a loop that is closed there is
none, or one that begins another. -/
structure IsLooped (letters : List Char) : Prop where
  begins : ∀ c ∈ letters.head?, c = 'M'
  closed : letters.IsChain fun c d => c = 'Z' → d = 'M'

theorem IsLooped.nil : IsLooped [] := ⟨nofun, .nil⟩

theorem IsLooped.append {front rest : List Char} (hf : IsLooped front) (hr : IsLooped rest) : IsLooped (front ++ rest) where
  begins := by
    cases front with
    | nil => exact hr.begins
    | cons c front => exact hf.begins
  closed := List.isChain_append.mpr ⟨hf.closed, hr.closed, fun _ _ d hd _ => hr.begins d hd⟩

def letters {α : Type} (o : Outline α) : List Char := o.map PathCommand.letter

theorem looped_append {α : Type} {body heads : Outline α} (hbody : IsLooped body.letters)
    (hheads : IsLooped heads.letters) : IsLooped (letters (body ++ heads)) := by
  rw [letters, List.map_append]
  exact hbody.append hheads

variable {α : Type} [Scalar α] {o : Outline α} {start finish : Point α} {thickness width : α}

theorem letters_settle {o' : Outline α} (h : settle o = .ok o') : o'.letters = o.letters := by
  have hcommands := mapM_eq_ok h
  induction hcommands with
  | nil => rfl
  | cons hc hrest ih => exact congrArg₂ List.cons (PathCommand.letter_settle hc) (ih (mapM_of_forall₂ hrest))

theorem looped_triangle {tip base : Point α} (h : triangle tip base width = .ok o) : IsLooped o.letters := by
  obtain ⟨direction, -, h⟩ := bind_eq_ok h
  cases direction with
  | none =>
    cases h
    exact .nil
  | some u =>
    obtain ⟨side, -, h⟩ := bind_eq_ok h
    cases h
    exact ⟨by simp [letters, PathCommand.letter], by simp [letters, PathCommand.letter]⟩

theorem looped_heads {bodyStart bodyEnd : Point α} {startArrow endArrow : Bool}
    (h : heads start finish bodyStart bodyEnd width startArrow endArrow = .ok o) : IsLooped o.letters := by
  have hhead {tip base : Point α} {asked : Bool} {head : Outline α}
      (h : (if asked then triangle tip base width else .ok []) = .ok head) : IsLooped head.letters := by
    cases asked with
    | true => exact looped_triangle h
    | false =>
      cases h
      exact .nil
  obtain ⟨first, hfirst, h⟩ := branch_eq_ok h
  obtain ⟨second, hsecond, h⟩ := branch_eq_ok h
  cases h
  exact looped_append (hhead hfirst) (hhead hsecond)

theorem looped_band {a b side : Point α} (h : settle (band a b side) = .ok o) : IsLooped o.letters := by
  rw [letters_settle h]
  exact ⟨by simp [letters, band, PathCommand.letter], by simp [letters, band, PathCommand.letter]⟩

theorem looped_ribbon {c : Curve α} (h : ribbon c thickness = .ok o) : IsLooped o.letters := by
  obtain ⟨half, -, h⟩ := bind_eq_ok h
  obtain ⟨atStart, -, h⟩ := bind_eq_ok h
  obtain ⟨atEnd, -, h⟩ := bind_eq_ok h
  obtain ⟨atControl, -, h⟩ := bind_eq_ok h
  rw [letters_settle h]
  exact ⟨by simp [letters, PathCommand.letter], by simp [letters, PathCommand.letter]⟩

theorem looped_arrow {startArrow endArrow : Bool} (h : arrow start finish thickness startArrow endArrow = .ok o) :
    IsLooped o.letters := by
  obtain ⟨direction, -, h⟩ := bind_eq_ok h
  cases direction with
  | none =>
    cases h
    exact .nil
  | some u =>
    obtain ⟨available, -, h⟩ := bind_eq_ok h
    obtain ⟨head, -, h⟩ := bind_eq_ok h
    obtain ⟨bodyStart, -, h⟩ := branch_eq_ok h
    obtain ⟨bodyEnd, -, h⟩ := branch_eq_ok h
    obtain ⟨side, -, h⟩ := bind_eq_ok h
    obtain ⟨body, hbody, h⟩ := bind_eq_ok h
    obtain ⟨triangles, hheads, h⟩ := bind_eq_ok h
    cases h
    exact looped_append (looped_band hbody) (looped_heads hheads)

theorem looped_curvedArrow {c : Curve α} {startArrow endArrow : Bool}
    (h : curvedArrow c thickness startArrow endArrow = .ok o) : IsLooped o.letters := by
  obtain ⟨available, -, h⟩ := bind_eq_ok h
  obtain ⟨head, -, h⟩ := bind_eq_ok h
  obtain ⟨t₀, -, h⟩ := branch_eq_ok h
  obtain ⟨t₁, -, h⟩ := branch_eq_ok h
  obtain ⟨part, -, h⟩ := bind_eq_ok h
  obtain ⟨body, hbody, h⟩ := bind_eq_ok h
  obtain ⟨triangles, hheads, h⟩ := bind_eq_ok h
  cases h
  exact looped_append (looped_ribbon hbody) (looped_heads hheads)

/-- What builds outlines. -/
inductive Built : Outline α → Prop where
  | arrow {start finish : Point α} {thickness : α} {startArrow endArrow : Bool} {o : Outline α}
      (h : arrow start finish thickness startArrow endArrow = .ok o) : Built o
  | ribbon {c : Curve α} {thickness : α} {o : Outline α} (h : ribbon c thickness = .ok o) : Built o
  | curvedArrow {c : Curve α} {thickness : α} {startArrow endArrow : Bool} {o : Outline α}
      (h : curvedArrow c thickness startArrow endArrow = .ok o) : Built o

theorem Built.looped (h : Built o) : IsLooped o.letters := by
  cases h with
  | arrow h => exact looped_arrow h
  | ribbon h => exact looped_ribbon h
  | curvedArrow h => exact looped_curvedArrow h

theorem built_ofCentreline {c : Centreline α} {kind : EdgeKind} (h : ofCentreline c kind thickness = .ok o) : Built o := by
  unfold ofCentreline at h
  split at h
  · split at h
    · exact .curvedArrow h
    · exact .ribbon h
  · split at h
    · exact .arrow h
    · exact .arrow h

end Outline

/-! ## Texts -/

namespace PlainDecimal

theorem isSome_value? {front tail : List Char} (h : Number.IsDecimal front tail) (neg : Bool) :
    ∃ q, value? (FixedText.signed neg (front ++ tail)) = some q := by
  obtain hwhole | ⟨places, hpoint, hne, hplaces⟩ := h.places
  · have htail : places? true tail = some [] := by rw [hwhole]; rfl
    exact ⟨_, value?_signed h.digits h.ne htail neg⟩
  · have htail : places? true tail = some places := by
      have hall : places.all Char.isDigit = true := List.all_eq_true.mpr hplaces
      simp [hpoint, places?, hne, hall]
    exact ⟨_, value?_signed h.digits h.ne htail neg⟩

end PlainDecimal

theorem isSome_viewText {v : FloatView} (h : v.isNumber = true) :
    ∃ q, PlainDecimal.value? (CompactText.viewText v) = some q := by
  cases v with
  | finite neg m e =>
    obtain ⟨s, front, tail, htext, hdecimal⟩ := CompactText.isDecimal_viewText neg m e
    rw [htext]
    exact PlainDecimal.isSome_value? hdecimal s
  | undefined => cases h
  | infinite neg => cases h

theorem Value.compact_of_isNumber {v : Value} (h : v.isNumber = true) :
    ∃ text q, v.compact = .ok text ∧ PlainDecimal.value? text = some q := by
  cases v with
  | real x =>
    obtain ⟨q, hq⟩ := isSome_viewText h
    exact ⟨_, q, rfl, hq⟩
  | whole n =>
    simp only [Value.isNumber, Bool.and_eq_true] at h
    obtain ⟨hfits, hview⟩ := h
    obtain ⟨q, hq⟩ := isSome_viewText hview
    refine ⟨_, q, ?_, hq⟩
    rw [Value.compact, Value.written, if_pos hfits]
    rfl
  | other value => cases h
  | fault cause => cases h

namespace PathData

open Text

variable {cs body : List Char} {xs : List ℚ} {texts : List (List Char)}

/-- Texts with a space in front of each. -/
def spaced (texts : List (List Char)) : List Char := texts.flatMap (' ' :: ·)

theorem splitAtEach_spaced (h : ∀ cs ∈ texts, ∀ c ∈ cs, isSpace c = false) :
    splitAtEach isSpace (spaced texts) = [] :: texts := by
  induction texts with
  | nil => rfl
  | cons cs texts ih =>
    obtain ⟨hcs, hrest⟩ := List.forall_mem_cons.mp h
    have hspaced : spaced (cs :: texts) = [] ++ ' ' :: (cs ++ spaced texts) := rfl
    rw [hspaced, splitAtEach_append_cons rfl, splitAtEach_append hcs (ih hrest), List.append_nil]
    rfl

/-- Numbers with spaces between them are read one by one, also with a space behind them. -/
theorem numbers?_spaced (h : List.Forall₂ (fun cs x => PlainDecimal.value? cs = some x) texts xs)
    (hbody : body = spaced texts ∨ body = spaced texts ++ [' ']) : numbers? body = some xs := by
  have hnumeral := numeral_of_values h
  have hspaces := splitAtEach_spaced fun cs hcs c hc => not_isSpace_of_isNumeral ((hnumeral cs hcs).2 c hc)
  have hfilled : texts.filter (!·.isEmpty) = texts :=
    List.filter_eq_self.mpr fun cs hcs => by simpa using (hnumeral cs hcs).1
  have hparts : (splitAtEach isSpace body).filter (!·.isEmpty) = texts := by
    rcases hbody with rfl | rfl
    · rw [hspaces]
      exact hfilled
    · rw [splitAtEach_append_cons rfl, hspaces, List.filter_append]
      exact (List.append_nil _).trans hfilled
  have hcomma : ∀ c ∈ spaced texts, (c == ',') = false := by
    intro c hc
    obtain ⟨cs, hcs, hc⟩ := List.mem_flatMap.mp hc
    rcases List.mem_cons.mp hc with rfl | hc
    · rfl
    · exact not_comma_of_isNumeral ((hnumeral cs hcs).2 c hc)
  have hwhole : splitAtEach (· == ',') body = [body] := by
    refine splitAtEach_of_none ?_
    rcases hbody with rfl | rfl
    · exact hcomma
    · exact List.forall_mem_append.mpr ⟨hcomma, List.forall_mem_singleton.mpr rfl⟩
  unfold numbers?
  rw [hwhole, List.map_singleton, hparts]
  change (if (false && _) = true then none else ([texts].flatten).mapM PlainDecimal.value?) = some xs
  rw [Bool.false_and, if_neg Bool.false_ne_true, List.flatten_singleton]
  exact mapM_eq_some_iff.mpr h

theorem command?_of_length (c : PathCommand Value) (h : xs.length = c.coordinates.length) :
    ∃ d, command? c.letter xs = some d ∧ d.letter = c.letter := by
  cases c with
  | move p | line p =>
    match xs, h with
    | [x, y], _ => exact ⟨_, rfl, rfl⟩
  | quadratic a p =>
    match xs, h with
    | [a, b, x, y], _ => exact ⟨_, rfl, rfl⟩
  | cubic a b p =>
    match xs, h with
    | [a, b, c, d, x, y], _ => exact ⟨_, rfl, rfl⟩
  | close =>
    match xs, h with
    | [], _ => exact ⟨_, rfl, rfl⟩

theorem joined_cons (separator cs : List Char) (more : List (List Char)) :
    Path.joined separator (cs :: more) = cs ++ more.flatMap (separator ++ ·) := by
  induction more generalizing cs with
  | nil => exact (List.append_nil cs).symm
  | cons next more ih =>
    rw [Path.joined, ih, List.flatMap_cons, List.append_assoc, List.append_assoc]
    exact List.cons_ne_nil _ _

theorem pointTexts_eq {points : List (Point Value)} (h : ∀ p ∈ points, p.isNumber = true) :
    ∃ pairs texts xs, points.mapM Path.pointText = .ok pairs ∧ spaced pairs = spaced texts ∧
      List.Forall₂ (fun cs x => PlainDecimal.value? cs = some x) texts xs ∧
        xs.length = (points.flatMap fun p => [p.x, p.y]).length := by
  induction points with
  | nil => exact ⟨[], [], [], rfl, rfl, .nil, rfl⟩
  | cons p points ih =>
    obtain ⟨hp, hrest⟩ := List.forall_mem_cons.mp h
    obtain ⟨pairs, texts, xs, hpairs, hspaced, hvalues, hlength⟩ := ih hrest
    obtain ⟨hpx, hpy⟩ := Bool.and_eq_true_iff.mp hp
    obtain ⟨tx, x, htx, hx⟩ := Value.compact_of_isNumber hpx
    obtain ⟨ty, y, hty, hy⟩ := Value.compact_of_isNumber hpy
    refine ⟨(tx ++ ' ' :: ty) :: pairs, tx :: ty :: texts, x :: y :: xs, ?_, ?_, .cons hx (.cons hy hvalues), ?_⟩
    · have hpoint : Path.pointText p = .ok (tx ++ ' ' :: ty) := by
        rw [Path.pointText, htx, hty]
        rfl
      rw [List.mapM_cons, hpoint, hpairs]
      rfl
    · simp only [spaced, List.flatMap_cons] at hspaced ⊢
      rw [hspaced]
      simp
    · simpa using hlength

theorem commandText_eq {c : PathCommand Value} (h : ∀ p ∈ c.points, p.isNumber = true) :
    ∃ texts xs, Path.commandText c = .ok (c.letter :: spaced texts) ∧
      List.Forall₂ (fun cs x => PlainDecimal.value? cs = some x) texts xs ∧ xs.length = c.coordinates.length := by
  obtain ⟨pairs, texts, xs, hpairs, hspaced, hvalues, hlength⟩ := pointTexts_eq h
  refine ⟨texts, xs, ?_, hvalues, hlength⟩
  rw [Path.commandText, hpairs, ← hspaced]
  change Except.ok (Path.joined [' '] ([c.letter] :: pairs)) = _
  rw [joined_cons]
  rfl

theorem isCommand_letter {α : Type} (c : PathCommand α) : isCommand c.letter = true ∧ capital c.letter = c.letter := by
  cases c <;> exact ⟨rfl, rfl⟩

theorem capital_of_isNumeral {c : Char} (h : PlainDecimal.isNumeral c = true) : capital c = c := by
  unfold capital
  split
  case h_6 => rfl
  all_goals cases h

theorem spaced_plain (h : List.Forall₂ (fun cs x => PlainDecimal.value? cs = some x) texts xs)
    (hbody : body = spaced texts ∨ body = spaced texts ++ [' ']) :
    ∀ c ∈ body, isCommand c = false ∧ capital c = c := by
  have hspace : isCommand ' ' = false ∧ capital ' ' = ' ' := ⟨rfl, rfl⟩
  have hspaced : ∀ c ∈ spaced texts, isCommand c = false ∧ capital c = c := by
    intro c hc
    obtain ⟨cs, hcs, hc⟩ := List.mem_flatMap.mp hc
    rcases List.mem_cons.mp hc with rfl | hc
    · exact hspace
    · have hnumeral := (numeral_of_values h cs hcs).2 c hc
      exact ⟨not_isCommand_of_isNumeral hnumeral, capital_of_isNumeral hnumeral⟩
  rcases hbody with rfl | rfl
  · exact hspaced
  · exact List.forall_mem_append.mpr ⟨hspaced, List.forall_mem_singleton.mpr hspace⟩

theorem joined_cases (cs : List Char) (texts : List (List Char)) :
    ∃ gap, Path.joined [' '] (cs :: texts) = cs ++ gap ++ Path.joined [' '] texts ∧ (gap = [] ∨ gap = [' ']) := by
  cases texts with
  | nil => exact ⟨[], by simp [Path.joined], .inl rfl⟩
  | cons next texts => exact ⟨[' '], by rw [Path.joined]; exact List.cons_ne_nil _ _, .inr rfl⟩

/-- The steps that are read of path data with capital letters only. -/
structure Reads (text : List Char) (steps : List Step) : Prop where
  absolute : ∀ c ∈ text, capital c = c
  front : (sections text).1 = []
  steps : (sections text).2.mapM step? = some steps

theorem reads_cons {letter : Char} {text : List Char} {steps : List Step} {s : Step} (hletter : isCommand letter = true)
    (hcapital : capital letter = letter) (hbody : ∀ c ∈ body, isCommand c = false ∧ capital c = c)
    (hstep : step? (letter, body) = some s) (h : Reads text steps) : Reads (letter :: (body ++ text)) (s :: steps) := by
  have hsections : sections (letter :: (body ++ text)) = ([], (letter, body) :: (sections text).2) := by
    rw [sections, sections_append fun c hc => (hbody c hc).1, h.front]
    simp [hletter]
  constructor
  · exact List.forall_mem_cons.mpr ⟨hcapital, List.forall_mem_append.mpr ⟨fun c hc => (hbody c hc).2, h.absolute⟩⟩
  · rw [hsections]
  · rw [hsections]
    exact mapM_eq_some_iff.mpr (.cons hstep (mapM_eq_some_iff.mp h.steps))

/-- What is written of an outline is read as steps with the same letters. -/
theorem reads_text {o : Outline Value} (h : o.isNumber = true) :
    ∃ texts steps, o.mapM Path.commandText = .ok texts ∧ Reads (Path.joined [' '] texts) steps ∧
      (∀ s ∈ steps, s.relative = false) ∧ steps.map (·.command.letter) = o.letters := by
  induction o with
  | nil => exact ⟨[], [], rfl, ⟨nofun, rfl, rfl⟩, nofun, rfl⟩
  | cons c o ih =>
    rw [Outline.isNumber, List.all_cons, Bool.and_eq_true, List.all_eq_true] at h
    obtain ⟨hc, hrest⟩ := h
    obtain ⟨texts, steps, htexts, hreads, habsolute, hletters⟩ := ih hrest
    obtain ⟨numbers, xs, hcommand, hvalues, hlength⟩ := commandText_eq hc
    obtain ⟨d, hd, hletter⟩ := command?_of_length c hlength
    obtain ⟨hknown, hcapital⟩ := isCommand_letter c
    obtain ⟨gap, hjoined, hgap⟩ := joined_cases (c.letter :: spaced numbers) texts
    have hbody : spaced numbers ++ gap = spaced numbers ∨ spaced numbers ++ gap = spaced numbers ++ [' '] := by
      rcases hgap with rfl | rfl
      · exact .inl (List.append_nil _)
      · exact .inr rfl
    have hstep : step? (c.letter, spaced numbers ++ gap) = some ⟨false, d⟩ := by
      rw [step?, numbers?_spaced hvalues hbody, hcapital]
      simp [hd]
    refine ⟨(c.letter :: spaced numbers) :: texts, ⟨false, d⟩ :: steps, ?_, ?_, ?_, ?_⟩
    · rw [List.mapM_cons, hcommand, htexts]
      rfl
    · rw [hjoined]
      exact reads_cons hknown hcapital (spaced_plain hvalues hbody) hstep hreads
    · exact List.forall_mem_cons.mpr ⟨rfl, habsolute⟩
    · exact congrArg₂ List.cons hletter hletters

theorem isMove_of_letter {α : Type} {c : PathCommand α} (h : c.letter = 'M') : c.isMove = true := by
  cases c
  case move => rfl
  all_goals cases h

/-- An outline of loops whose coordinates are numbers is written as path data that can be followed. -/
theorem isAbsolute_text {o : Outline Value} (hlooped : Outline.IsLooped o.letters) (hne : o ≠ [])
    (h : o.isNumber = true) :
    ∃ text commands, Path.text o = .ok text ∧ IsAbsolute text commands ∧ commands.map (·.letter) = o.letters := by
  obtain ⟨texts, steps, htexts, hreads, habsolute, hletters⟩ := reads_text h
  have hcommands : (steps.map (·.command)).map (·.letter) = o.letters := by rw [List.map_map]; exact hletters
  have hmove : steps.head?.any (·.command.isMove) = true := by
    rw [← hletters] at hlooped
    cases steps with
    | nil =>
      cases o with
      | nil => exact absurd rfl hne
      | cons c o => cases hletters
    | cons s steps => exact isMove_of_letter (hlooped.begins _ rfl)
  refine ⟨Path.joined [' '] texts, steps.map (·.command), ?_, ⟨hreads.absolute, ?_, ?_⟩, hcommands⟩
  · rw [Path.text, htexts]
    rfl
  · have hsteps : steps? (Path.joined [' '] texts) = some steps := by
      rw [steps?, hreads.front, if_pos List.isEmpty_nil, hreads.steps]
    rw [follow?, hsteps]
    change (if _ then _ else _) = _
    rw [if_pos hmove, follow_of_absolute habsolute]
    rfl
  · have hclosed := hlooped.closed
    rw [← hcommands, List.isChain_map] at hclosed
    exact hclosed.imp fun c d hcd hclose => isMove_of_letter (hcd (by rw [hclose]; rfl))

end PathData
end NodeLink
