import NodeLink.Proofs.Geometry.ExactTenths

/-!
# Following path data

Path data says where a pen goes. A capital letter takes its points as they are, a small letter measures them from
where the pen is, and to close a path takes the pen back to where that path began. With exact coordinates, path
data that is made shorter leads a pen through the same commands, with every point at its nearest tenth: where the
pen is and the point that differences are taken to stay the same, so that no error adds up.
-/

namespace NodeLink

namespace PathCommand

variable {α : Type}

def isMove : PathCommand α → Bool
  | .move _ => true
  | _ => false

/-- The coordinates of the points of a command, in order. -/
def coordinates (c : PathCommand α) : List α := c.points.flatMap fun p => [p.x, p.y]

theorem exists_of_isMove {c : PathCommand α} (h : c.isMove = true) : ∃ p, c = .move p := by
  cases c
  case move p => exact ⟨p, rfl⟩
  all_goals cases h

theorem points_map {β : Type} (f : Point α → Point β) (c : PathCommand α) : (c.map f).points = c.points.map f := by
  cases c <;> rfl

theorem relativeTo_eq [Sub α] (origin : Point α) (c : PathCommand α) :
    c.relativeTo origin = if c.isMove then c else c.map fun p => ⟨p.x - origin.x, p.y - origin.y⟩ := by
  cases c <;> rfl

theorem endPoint?_mem {c : PathCommand α} {p : Point α} (h : c.endPoint? = some p) : p ∈ c.points := by
  cases c <;> cases h <;> simp [points]

end PathCommand

namespace PathData

open Text

/-! ## What path data means -/

/-- The capital letter of the same command. -/
def capital : Char → Char
  | 'm' => 'M'
  | 'l' => 'L'
  | 'q' => 'Q'
  | 'c' => 'C'
  | 'z' => 'Z'
  | c => c

/-- The letters of commands, capital and small. -/
def isCommand (c : Char) : Bool := PathCommand.isLetter (capital c)

def isSpace (c : Char) : Bool := c == ' ' || c == '\t' || c == '\n' || c == '\r' || c == '\x0c'

def isSeparator (c : Char) : Bool := isSpace c || c == ','

/-- What stands in front of the first command, and the letters of commands, each with what stands up to the
next. -/
def sections : List Char → List Char × List (Char × List Char)
  | [] => ([], [])
  | c :: cs =>
    let (front, parts) := sections cs
    if isCommand c then ([], (c, front) :: parts) else (c :: front, parts)

/-- The numbers of a command. Between two of them are spaces, or a comma that may have spaces around it. -/
def numbers? (cs : List Char) : Option (List ℚ) :=
  let groups := (splitAtEach (· == ',') cs).map fun group => (splitAtEach isSpace group).filter (!·.isEmpty)
  if 1 < groups.length && groups.any (·.isEmpty) then none else groups.flatten.mapM PlainDecimal.value?

/-- The command of a capital letter with as many numbers as it takes. -/
def command? : Char → List ℚ → Option (PathCommand ℚ)
  | 'M', [x, y] => some (.move ⟨x, y⟩)
  | 'L', [x, y] => some (.line ⟨x, y⟩)
  | 'Q', [a, b, x, y] => some (.quadratic ⟨a, b⟩ ⟨x, y⟩)
  | 'C', [a, b, c, d, x, y] => some (.cubic ⟨a, b⟩ ⟨c, d⟩ ⟨x, y⟩)
  | 'Z', [] => some .close
  | _, _ => none

/-- A command as it is written, with its points as they are or measured from where the pen is. -/
structure Step where
  relative : Bool
  command : PathCommand ℚ

def step? (part : Char × List Char) : Option Step := do
  let numbers ← numbers? part.2
  return ⟨capital part.1 != part.1, ← command? (capital part.1) numbers⟩

def steps? (text : List Char) : Option (List Step) :=
  if (sections text).1.isEmpty then (sections text).2.mapM step? else none

/-- Where the pen is, and where the path that it draws began. -/
structure Pen where
  place : Point ℚ
  start : Point ℚ

namespace Pen

/-- The command of a step with its points as they are. -/
def command (pen : Pen) (s : Step) : PathCommand ℚ :=
  if s.relative then s.command.map fun p => ⟨pen.place.x + p.x, pen.place.y + p.y⟩ else s.command

def after (pen : Pen) : PathCommand ℚ → Pen
  | .move p => ⟨p, p⟩
  | .line p => { pen with place := p }
  | .quadratic _ p => { pen with place := p }
  | .cubic _ _ p => { pen with place := p }
  | .close => { pen with place := pen.start }

/-- The commands that a pen is led through. -/
def follow (pen : Pen) : List Step → List (PathCommand ℚ)
  | [] => []
  | s :: steps => pen.command s :: (pen.after (pen.command s)).follow steps

end Pen

/-- The commands that path data leads a pen through, with their points as they are. It begins with a move. -/
def follow? (text : List Char) : Option (List (PathCommand ℚ)) := do
  let steps ← steps? text
  if steps.head?.any (·.command.isMove) then return Pen.follow ⟨⟨0, 0⟩, ⟨0, 0⟩⟩ steps else none

/-- Path data with capital letters only that leads through the given commands. A path that is closed is the last,
or another begins. -/
structure IsAbsolute (text : List Char) (commands : List (PathCommand ℚ)) : Prop where
  absolute : ∀ c ∈ text, capital c = c
  leads : follow? text = some commands
  closed : commands.IsChain fun c d => c = .close → d.isMove = true

/-! ## How numbers are separated -/

variable {cs text : List Char} {xs : List ℚ} {commands : List (PathCommand ℚ)}

theorem isBlank_of_isSpace {c : Char} (h : isSpace c = true) : isBlank c = true := by
  simp only [isSpace, Bool.or_eq_true, beq_iff_eq] at h
  rcases h with (((rfl | rfl) | rfl) | rfl) | rfl <;> rfl

theorem not_isSpace_of_isNumeral {c : Char} (h : PlainDecimal.isNumeral c = true) : isSpace c = false := by
  cases hspace : isSpace c with
  | false => rfl
  | true =>
    have hblank := isBlank_of_isSpace hspace
    rw [PlainDecimal.not_isBlank_of_isNumeral h] at hblank
    cases hblank

/-- Whatever separates them, the numbers are what stands between spaces and commas. -/
theorem numbers?_eq_some (h : numbers? cs = some xs) :
    ((splitAtEach isSeparator cs).filter (!·.isEmpty)).mapM PlainDecimal.value? = some xs := by
  have hgroups : splitAtEach isSeparator cs = (splitAtEach (· == ',') cs).flatMap (splitAtEach isSpace) :=
    splitAtEach_or _ _ cs
  unfold numbers? at h
  dsimp only at h
  split at h
  · cases h
  · rwa [hgroups, List.filter_flatMap]

/-- Between plain decimals there are no other blanks than spaces. -/
theorem numerals_eq (h : numbers? cs = some xs) :
    Path.numerals cs = (splitAtEach isSeparator cs).filter (!·.isEmpty) := by
  have hnumbers := mapM_eq_some_iff.mp (numbers?_eq_some h)
  unfold Path.numerals
  congr 1
  refine splitAtEach_congr fun c hc => ?_
  cases hmark : isSeparator c with
  | true =>
    rcases (Bool.or_eq_true _ _).mp hmark with hspace | hcomma
    · rw [isBlank_of_isSpace hspace, Bool.true_or]
    · rw [hcomma, Bool.or_true]
  | false =>
    obtain ⟨part, hpart, hin⟩ := exists_part hc hmark
    have hkept : part ∈ (splitAtEach isSeparator cs).filter (!·.isEmpty) :=
      List.mem_filter.mpr ⟨hpart, by simpa using List.ne_nil_of_mem hin⟩
    obtain ⟨x, -, hx⟩ := exists_of_forall₂ hnumbers.flip hkept
    rw [PlainDecimal.not_isBlank_of_isNumeral (PlainDecimal.isNumeral_of_value? hx c hin), Bool.false_or]
    exact (Bool.or_eq_false_iff.mp hmark).2

theorem numbers_eq (h : numbers? cs = some xs) : (Path.numbers cs : Except Fault (List ℚ)) = .ok xs := by
  unfold Path.numbers
  rw [numerals_eq h]
  have hnumbers := mapM_eq_some_iff.mp (numbers?_eq_some h)
  exact mapM_of_forall₂ (hnumbers.imp fun _ _ hx => Path.number_eq (PlainDecimal.read?_of_value? hx))

theorem splitAtEach_joined {mark : Char → Bool} {separator : Char} (hmark : mark separator = true)
    {texts : List (List Char)} (hne : texts ≠ []) (h : ∀ cs ∈ texts, ∀ c ∈ cs, mark c = false) :
    splitAtEach mark (Path.joined [separator] texts) = texts := by
  fun_induction Path.joined [separator] texts with
  | case1 => exact absurd rfl hne
  | case2 cs => exact splitAtEach_of_none (h cs (by simp))
  | case3 cs more hmore ih =>
    obtain ⟨hcs, hrest⟩ := List.forall_mem_cons.mp h
    rw [List.append_assoc, List.singleton_append, splitAtEach_append_cons hmark, splitAtEach_of_none hcs,
      ih hmore hrest]
    rfl

theorem numeral_of_values {texts : List (List Char)}
    (h : List.Forall₂ (fun cs x => PlainDecimal.value? cs = some x) texts xs) :
    ∀ cs ∈ texts, cs ≠ [] ∧ ∀ c ∈ cs, PlainDecimal.isNumeral c = true := by
  intro cs hcs
  obtain ⟨x, -, hx⟩ := exists_of_forall₂ h.flip hcs
  refine ⟨?_, PlainDecimal.isNumeral_of_value? hx⟩
  rintro rfl
  cases hx

theorem not_comma_of_isNumeral {c : Char} (h : PlainDecimal.isNumeral c = true) : (c == ',') = false :=
  beq_false_of_ne (ne_of_test h rfl)

theorem numbers?_joined {texts : List (List Char)}
    (h : List.Forall₂ (fun cs x => PlainDecimal.value? cs = some x) texts xs) :
    numbers? (Path.joined [','] texts) = some xs := by
  have hnumeral := numeral_of_values h
  by_cases hne : texts = []
  · subst hne
    cases h
    rfl
  · have hcommas : splitAtEach (· == ',') (Path.joined [','] texts) = texts :=
      splitAtEach_joined rfl hne fun cs hcs c hc => not_comma_of_isNumeral ((hnumeral cs hcs).2 c hc)
    have hgroup : ∀ cs ∈ texts, (splitAtEach isSpace cs).filter (!·.isEmpty) = [cs] := by
      intro cs hcs
      obtain ⟨hfilled, hchars⟩ := hnumeral cs hcs
      rw [splitAtEach_of_none fun c hc => not_isSpace_of_isNumeral (hchars c hc)]
      simp [hfilled]
    have hflat : (texts.map fun cs => [cs]).flatten = texts := List.flatMap_singleton' texts
    unfold numbers?
    rw [hcommas, List.map_congr_left hgroup]
    dsimp only
    rw [if_neg (by simp), hflat]
    exact mapM_eq_some_iff.mpr h

/-! ## Reading capital letters -/

theorem isCommand_of_capital {c : Char} (h : capital c = c) : isCommand c = PathCommand.isLetter c := by
  rw [isCommand, h]

/-- Where all letters are capital, the commands that are looked for are those that count. -/
theorem sections_of_capital (h : ∀ c ∈ cs, capital c = c) :
    sections cs = (cs.takeWhile fun c => !PathCommand.isLetter c, Path.pieces cs) := by
  induction cs with
  | nil => rfl
  | cons c cs ih =>
    obtain ⟨hc, hcs⟩ := List.forall_mem_cons.mp h
    rw [sections, ih hcs, Path.pieces, isCommand_of_capital hc]
    cases hletter : PathCommand.isLetter c <;> simp [hletter]

theorem readPiece_of_command? {letter : Char} {body : List Char} {c : PathCommand ℚ}
    (hnumbers : (Path.numbers body : Except Fault (List ℚ)) = .ok xs) (h : command? letter xs = some c) :
    Path.readPiece (letter, body) = .ok (some c) := by
  have hread (hletter : letter ≠ 'Z') :
      Path.readPiece (letter, body) = .ok (PathCommand.ofNumbers? letter xs) := by
    rw [Path.readPiece, if_neg hletter, hnumbers]
    rfl
  unfold command? at h
  split at h
  case h_5 =>
    cases h
    rfl
  case h_6 => cases h
  all_goals
    cases h
    exact hread (by decide)

theorem readPiece_of_step? {part : Char × List Char} {s : Step} (hpart : capital part.1 = part.1)
    (h : step? part = some s) : s.relative = false ∧ Path.readPiece part = .ok (some s.command) := by
  obtain ⟨numbers, hnumbers, h⟩ := Option.bind_eq_some_iff.mp h
  obtain ⟨command, hcommand, h⟩ := Option.bind_eq_some_iff.mp h
  cases h
  rw [hpart] at hcommand
  exact ⟨by simp [hpart], readPiece_of_command? (numbers_eq hnumbers) hcommand⟩

/-! ## Reading shorter path data -/

theorem sections_append {body : List Char} (hbody : ∀ c ∈ body, isCommand c = false) (cs : List Char) :
    sections (body ++ cs) = (body ++ (sections cs).1, (sections cs).2) := by
  induction body with
  | nil => rfl
  | cons c body ih =>
    obtain ⟨hc, hrest⟩ := List.forall_mem_cons.mp hbody
    rw [List.cons_append, sections, ih hrest]
    simp [hc]

/-- The letter and the numbers of a command that is made shorter. -/
def shortPart (c : PathCommand ℚ) : Char × List Char :=
  (if c.isMove then 'M' else c.letter.toLower, Path.joined [','] (c.points.map Path.tenthsText))

theorem shortCommandText_eq (c : PathCommand ℚ) :
    Path.shortCommandText c = (shortPart c).1 :: (shortPart c).2 := by
  cases c <;> rfl

theorem joined_tenthsText (c : PathCommand ℚ) :
    (shortPart c).2 = Path.joined [','] (c.coordinates.map Coordinate.tenths) := by
  cases c <;> simp [shortPart, PathCommand.coordinates, PathCommand.points, Path.tenthsText, Path.joined]

theorem not_isCommand_of_isNumeral {c : Char} (h : PlainDecimal.isNumeral c = true) : isCommand c = false := by
  cases hcommand : isCommand c with
  | false => rfl
  | true =>
    unfold isCommand capital at hcommand
    split at hcommand
    case h_6 =>
      simp only [PathCommand.isLetter, Bool.or_eq_true, beq_iff_eq] at hcommand
      rcases hcommand with (((rfl | rfl) | rfl) | rfl) | rfl <;> cases h
    all_goals cases h

theorem shortPart_plain (c : PathCommand ℚ) :
    isCommand (shortPart c).1 = true ∧ ∀ d ∈ (shortPart c).2, isCommand d = false := by
  refine ⟨by cases c <;> rfl, ?_⟩
  rw [joined_tenthsText]
  refine Path.joined_induction (P := fun cs => ∀ d ∈ cs, isCommand d = false) nofun (fun cs more hcs hmore => ?_)
    fun cs hcs => ?_
  · exact List.forall_mem_append.mpr ⟨List.forall_mem_append.mpr ⟨hcs, List.forall_mem_singleton.mpr rfl⟩, hmore⟩
  · obtain ⟨q, -, rfl⟩ := List.mem_map.mp hcs
    exact fun d hd => not_isCommand_of_isNumeral (PlainDecimal.isNumeral_of_value? (PlainDecimal.value?_tenths q) d hd)

theorem sections_shortened (commands : List (PathCommand ℚ)) :
    sections (commands.map Path.shortCommandText).flatten = ([], commands.map shortPart) := by
  induction commands with
  | nil => rfl
  | cons c commands ih =>
    obtain ⟨hletter, hbody⟩ := shortPart_plain c
    rw [List.map_cons, List.flatten_cons, shortCommandText_eq, List.cons_append, sections,
      sections_append hbody, ih]
    simp [hletter]

/-- A point both of whose coordinates are tenths. -/
def IsTenth (p : Point ℚ) : Prop := ExactTenths.IsTenth p.x ∧ ExactTenths.IsTenth p.y

def HasTenths (c : PathCommand ℚ) : Prop := ∀ p ∈ c.points, IsTenth p

/-- How a command that is made shorter is written: only a move has its point as it is. -/
def shortStep (c : PathCommand ℚ) : Step := ⟨!c.isMove, c⟩

theorem step?_shortPart {c : PathCommand ℚ} (h : HasTenths c) : step? (shortPart c) = some (shortStep c) := by
  have hnumbers : numbers? (shortPart c).2 = some c.coordinates := by
    rw [joined_tenthsText]
    apply numbers?_joined
    rw [List.forall₂_map_left_iff]
    refine List.forall₂_same.mpr fun q hq => ?_
    obtain ⟨p, hp, hq⟩ := List.mem_flatMap.mp hq
    have htenth : ExactTenths.IsTenth q := by
      obtain ⟨hx, hy⟩ := h p hp
      rcases List.mem_pair.mp hq with rfl | rfl
      · exact hx
      · exact hy
    rw [PlainDecimal.value?_tenths, ExactTenths.nearestTenth_of_isTenth htenth]
  unfold step?
  rw [hnumbers]
  cases c <;> rfl

theorem isTenth_nearestTenth (p : Point ℚ) : IsTenth (Path.nearestTenth p) :=
  ⟨ExactTenths.isTenth_nearestTenth p.x, ExactTenths.isTenth_nearestTenth p.y⟩

/-- The command with every point at its nearest tenth. -/
def rounded (c : PathCommand ℚ) : PathCommand ℚ := c.map Path.nearestTenth

theorem hasTenths_rounded (c : PathCommand ℚ) : HasTenths (rounded c) := by
  intro p hp
  rw [rounded, PathCommand.points_map] at hp
  obtain ⟨q, -, rfl⟩ := List.mem_map.mp hp
  exact isTenth_nearestTenth q

theorem hasTenths_relativeTo {c : PathCommand ℚ} {origin : Point ℚ} (hc : HasTenths c) (horigin : IsTenth origin) :
    HasTenths (c.relativeTo origin) := by
  rw [PathCommand.relativeTo_eq]
  split
  · exact hc
  · intro p hp
    rw [PathCommand.points_map] at hp
    obtain ⟨q, hq, rfl⟩ := List.mem_map.mp hp
    exact ⟨(hc q hq).1.sub horigin.1, (hc q hq).2.sub horigin.2⟩

theorem hasTenths_relativeFrom {origin : Point ℚ} (horigin : IsTenth origin) :
    ∀ c ∈ Path.relativeFrom origin commands, HasTenths c := by
  induction commands generalizing origin with
  | nil => exact nofun
  | cons c commands ih =>
    have hc := hasTenths_rounded c
    refine List.forall_mem_cons.mpr ⟨hasTenths_relativeTo hc horigin, ih ?_⟩
    change IsTenth ((rounded c).endPoint?.getD origin)
    cases hend : (rounded c).endPoint? with
    | none => exact horigin
    | some p => exact hc p (PathCommand.endPoint?_mem hend)

theorem steps?_shortened {origin : Point ℚ} (horigin : IsTenth origin) :
    steps? ((Path.relativeFrom origin commands).map Path.shortCommandText).flatten =
      some ((Path.relativeFrom origin commands).map shortStep) := by
  rw [steps?, sections_shortened]
  refine mapM_eq_some_iff.mpr ?_
  rw [List.forall₂_map_left_iff, List.forall₂_map_right_iff]
  exact List.forall₂_same.mpr fun c hc => step?_shortPart (hasTenths_relativeFrom horigin c hc)

/-! ## Following shorter path data -/

theorem map_cancel (c : PathCommand ℚ) (p : Point ℚ) :
    ((c.map fun q => ⟨q.x - p.x, q.y - p.y⟩).map fun q => ⟨p.x + q.x, p.y + q.y⟩) = c := by
  cases c <;> simp [PathCommand.map]

theorem isMove_map (f : Point ℚ → Point ℚ) (c : PathCommand ℚ) : (c.map f).isMove = c.isMove := by
  cases c <;> rfl

/-- A pen that is where differences are taken to is led through the command that they were taken of. -/
theorem command_relativeTo {pen : Pen} {origin : Point ℚ} {c : PathCommand ℚ}
    (h : pen.place = origin ∨ c.isMove = true) :
    pen.command (shortStep (c.relativeTo origin)) = c := by
  rw [PathCommand.relativeTo_eq]
  cases hmove : c.isMove with
  | true => simp [shortStep, Pen.command, hmove]
  | false =>
    obtain rfl := h.resolve_right (by simp [hmove])
    simp [shortStep, Pen.command, isMove_map, hmove, map_cancel]

theorem place_after (pen : Pen) {origin : Point ℚ} {c : PathCommand ℚ} (h : c ≠ .close) :
    (pen.after c).place = c.endPoint?.getD origin := by
  cases c
  case close => exact absurd rfl h
  all_goals rfl

/-- The pen is where differences are taken to, unless a path was just closed: then it is moved next. -/
theorem follow_relativeFrom {pen : Pen} {origin : Point ℚ}
    (hpen : pen.place = origin ∨ ∀ c ∈ commands.head?, c.isMove = true)
    (hclosed : commands.IsChain fun c d => c = .close → d.isMove = true) :
    pen.follow ((Path.relativeFrom origin commands).map shortStep) = commands.map rounded := by
  induction commands generalizing pen origin with
  | nil => rfl
  | cons c commands ih =>
    obtain ⟨hhead, htail⟩ := List.isChain_cons.mp hclosed
    have hcommand : pen.command (shortStep ((rounded c).relativeTo origin)) = rounded c := by
      apply command_relativeTo
      rw [rounded, isMove_map]
      exact hpen.imp_right fun h => h c rfl
    have hnext : (pen.after (rounded c)).place = (rounded c).endPoint?.getD origin ∨
        ∀ d ∈ commands.head?, d.isMove = true := by
      by_cases hclose : c = .close
      · exact .inr fun d hd => hhead d hd hclose
      · refine .inl (place_after pen ?_)
        cases c
        case close => exact absurd rfl hclose
        all_goals exact nofun
    have hrelative : Path.relativeFrom origin (c :: commands) = (rounded c).relativeTo origin ::
        Path.relativeFrom ((rounded c).endPoint?.getD origin) commands := rfl
    rw [hrelative, List.map_cons, Pen.follow, hcommand, ih hnext htail, List.map_cons]

theorem follow_of_absolute {steps : List Step} (h : ∀ s ∈ steps, s.relative = false) (pen : Pen) :
    pen.follow steps = steps.map (·.command) := by
  induction steps generalizing pen with
  | nil => rfl
  | cons s steps ih =>
    obtain ⟨hs, hrest⟩ := List.forall_mem_cons.mp h
    rw [Pen.follow, ih hrest, Pen.command, hs]
    rfl

theorem read_of_absolute (h : IsAbsolute text commands) :
    Path.read text = .ok commands ∧ ∃ p rest, commands = .move p :: rest := by
  obtain ⟨steps, hsteps, hfollow⟩ := Option.bind_eq_some_iff.mp h.leads
  split at hfollow
  case isFalse => cases hfollow
  case isTrue hmove =>
    unfold steps? at hsteps
    rw [sections_of_capital h.absolute] at hsteps
    split at hsteps
    case isFalse => cases hsteps
    case isTrue =>
      -- with capital letters only, no step needs to know where the pen is
      have hcapital : ∀ part ∈ Path.pieces text, capital part.1 = part.1 := by
        intro part hpart
        obtain ⟨before, after, rfl, -, -⟩ := Path.mem_pieces hpart
        exact h.absolute part.1 (by simp)
      have hread : List.Forall₂ (fun part s => s.relative = false ∧ Path.readPiece part = .ok (some s.command))
          (Path.pieces text) steps :=
        ((List.forall₂_and_left _ _).mpr ⟨hcapital, mapM_eq_some_iff.mp hsteps⟩).imp
          fun _ _ hs => readPiece_of_step? hs.1 hs.2
      have habsolute : ∀ s ∈ steps, s.relative = false := forall_of_forall₂ (fun hs => hs.1) hread
      have hpieces : (Path.pieces text).mapM Path.readPiece = .ok (steps.map fun s => some s.command) :=
        mapM_of_forall₂ ((List.forall₂_map_right_iff).mpr (hread.imp fun _ _ hs => hs.2))
      cases hfollow
      rw [follow_of_absolute habsolute]
      constructor
      · rw [Path.read, hpieces]
        change Except.ok _ = Except.ok _
        simp [List.filterMap_map]
      · cases steps with
        | nil => cases hmove
        | cons s steps =>
          obtain ⟨p, hp⟩ := PathCommand.exists_of_isMove (c := s.command) (by simpa using hmove)
          exact ⟨p, steps.map (·.command), by rw [List.map_cons, hp]⟩

/-- With exact coordinates, path data that is made shorter leads through the same commands, with every point at its
nearest tenth. -/
theorem optimizeIn_of_absolute (h : IsAbsolute text commands) :
    ∃ out, Path.optimizeIn ℚ text = .ok out ∧ follow? out = some (commands.map rounded) := by
  obtain ⟨hread, p, rest, rfl⟩ := read_of_absolute h
  have hpieces : (Path.pieces text).isEmpty = false := by
    cases hnone : Path.pieces text with
    | nil =>
      rw [Path.read, hnone] at hread
      cases hread
    | cons part parts => rfl
  have hzero : IsTenth ⟨Coordinate.zero, Coordinate.zero⟩ := ⟨⟨0, (zero_div _).symm⟩, ⟨0, (zero_div _).symm⟩⟩
  refine ⟨_, by rw [Path.optimizeIn, hpieces, hread]; rfl, ?_⟩
  rw [follow?, steps?_shortened hzero]
  exact congrArg some (follow_relativeFrom (.inl rfl) h.closed)

end PathData
end NodeLink
