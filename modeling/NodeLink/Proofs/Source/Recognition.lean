import NodeLink.Proofs.Outcome
import NodeLink.Proofs.Source.Connectors
import NodeLink.Proofs.Source.Lines
import NodeLink.Source.Declaration

/-!
# Which edge lines are recognised

A text can be cut in more than one way into two ends and a connector of a form between them. A form finds a cut
whenever there is one, and of all of them that of the shortest left end, and of these that of the longest
connector. Every edge that a line declares is such a cut of what stands before the label.
-/

namespace NodeLink.Source

open NodeLink.Text

variable {cs digits rest left right mark : List Char} {form : Form} {c : Connector}

/-- A text is two ends that are not empty and a connector of a form between them. -/
structure Cut (form : Form) (cs left : List Char) (c : Connector) (right : List Char) : Prop where
  ofForm : c.form = form
  whole : cs = left ++ c.text ++ right
  left_ne : left ≠ []
  right_ne : right ≠ []

/-- The cut behind the shortest left end, and of these that of the longest connector. -/
structure FirstCut (form : Form) (cs left : List Char) (c : Connector) (right : List Char) : Prop extends
    Cut form cs left c right where
  shortest : ∀ left' c' right', Cut form cs left' c' right' → left.length ≤ left'.length
  longest : ∀ c' right', Cut form cs left c' right' → c'.text.length ≤ c.text.length

/-! ### The readings of a connector -/

namespace Form

theorem plain?_append (mark rest : List Char) : plain? mark (mark ++ rest) = some ([], rest) := by
  rw [plain?, afterLead?_append]
  rfl

/-- A connector at the front of a text is among the readings of its form. -/
theorem mem_readings (c : Connector) (rest : List Char) :
    (c.digits, rest) ∈ c.form.readings (c.text ++ rest) := by
  have hdash : isDigit '-' = false := by decide
  have hplain (mark : List Char) : some ([], rest) = plain? mark (mark ++ rest) := (plain?_append mark rest).symm
  have hweighted (lead back : List Char) (w : Weight) :
      some (w.digits, rest) = weighted? lead ('-' :: back) (lead ++ w.digits ++ '-' :: back ++ rest) :=
    (weighted?_append lead back rest w hdash).symm
  cases c <;> simp only [Connector.form, readings, List.mem_filterMap, List.mem_cons, List.not_mem_nil, or_false,
    id, exists_eq_right]
  case both w =>
    cases w with
    | none => exact Or.inr (hplain ['<', '-', '>'])
    | some w => exact Or.inl (hweighted ['<', '-'] ['>'] w)
  case forward long w =>
    cases long <;> cases w
    case false.none => exact Or.inr (Or.inr (Or.inr (hplain ['-', '>'])))
    case false.some w => exact Or.inr (Or.inr (Or.inl (hweighted ['-'] ['>'] w)))
    case true.none => exact Or.inr (Or.inl (hplain ['-', '-', '>']))
    case true.some w => exact Or.inl (hweighted ['-', '-'] ['>'] w)
  case backward w =>
    cases w with
    | none => exact Or.inr (hplain ['<', '-'])
    | some w => exact Or.inl (hweighted ['<', '-'] [] w)
  case dashes w =>
    cases w with
    | none => exact Or.inr (hplain ['-', '-'])
    | some w => exact Or.inl (hweighted ['-'] ['-'] w)
  case single w => exact hweighted ['-'] [] w

/-- How much of a text a connector with a weight takes. -/
theorem weighted?_length {lead back : List Char} (h : weighted? lead back cs = some (digits, rest)) :
    lead.length + back.length + rest.length < cs.length := by
  obtain ⟨w, rfl, rfl⟩ := weighted?_eq h
  have hdigits := List.length_pos_of_ne_nil w.ne_nil
  simp only [List.length_append]
  omega

theorem plain?_length (h : plain? mark cs = some (digits, rest)) : mark.length + rest.length = cs.length := by
  obtain ⟨-, rfl⟩ := plain?_eq h
  exact (List.length_append ..).symm

/-- A digit and a dash do not stand in the same place. -/
theorem weighted?_excludes {lead back : List Char} (h : weighted? lead back cs = some (digits, rest)) :
    ∀ tail, cs ≠ lead ++ '-' :: tail := by
  rintro tail rfl
  rw [weighted?_none lead (by decide)] at h
  cases h

/-- The one reading takes as much of a text as the other one or more. -/
def Before (found found' : Option (List Char × List Char)) : Prop :=
  ∀ reading, found = some reading → ∀ reading', found' = some reading' → reading.2.length ≤ reading'.2.length

theorem weighted?_before {lead back : List Char} (cs : List Char)
    (hmark : mark.length ≤ lead.length + back.length + 1) : Before (weighted? lead back cs) (plain? mark cs) := by
  intro reading h reading' h'
  have hlength := weighted?_length h
  have hlength' := plain?_length h'
  omega

theorem before_of_dash {found : Option (List Char × List Char)} {lead back : List Char}
    (h : ∀ reading, found = some reading → ∃ tail, cs = lead ++ '-' :: tail) :
    Before found (weighted? lead back cs) := by
  intro reading hfound reading' hweighted
  obtain ⟨tail, htail⟩ := h reading hfound
  exact absurd htail (weighted?_excludes hweighted tail)

/-- Longer connectors come first among the readings. -/
theorem readings_sorted (form : Form) (cs : List Char) :
    (form.readings cs).Pairwise fun found found' => found.2.length ≤ found'.2.length := by
  unfold readings
  rw [List.pairwise_filterMap]
  cases form
  case both => exact List.pairwise_pair.mpr (weighted?_before cs (by decide))
  case forward =>
    -- A long arrow has its second dash where the weight of a short one begins.
    have hlong : Before (weighted? ['-', '-'] ['-', '>'] cs) (weighted? ['-'] ['-', '>'] cs) := by
      apply before_of_dash
      rintro reading h
      obtain ⟨w, -, rfl⟩ := weighted?_eq h
      exact ⟨_, rfl⟩
    have hplain : Before (plain? ['-', '-', '>'] cs) (weighted? ['-'] ['-', '>'] cs) := by
      apply before_of_dash
      rintro reading h
      obtain ⟨-, rfl⟩ := plain?_eq h
      exact ⟨_, rfl⟩
    have hplains : Before (plain? ['-', '-', '>'] cs) (plain? ['-', '>'] cs) := by
      intro reading h reading' h'
      have hlength := (plain?_length h).trans (plain?_length h').symm
      simp only [List.length_cons, List.length_nil] at hlength
      omega
    refine .cons ?_ (.cons ?_ (List.pairwise_pair.mpr (weighted?_before cs (by decide))))
    · simp only [List.forall_mem_cons]
      exact ⟨weighted?_before cs (by decide), hlong, weighted?_before cs (by decide), nofun⟩
    · simp only [List.forall_mem_cons]
      exact ⟨hplain, hplains, nofun⟩
  case backward => exact List.pairwise_pair.mpr (weighted?_before cs (by decide))
  case dashes => exact List.pairwise_pair.mpr (weighted?_before cs (by decide))
  case single => exact List.pairwise_singleton ..

/-! ### The first cut -/

theorem rightEnd?_eq (hn : '\n' ∉ rest) (h : rightEnd? rest = some right) : rest ≠ [] ∧ right = rest := by
  have hne : rest ≠ [] := by
    rintro rfl
    cases h
  rw [rightEnd?_self hne hn] at h
  exact ⟨hne, (Option.some.inj h).symm⟩

/-- At the front of a text the longest connector is found that leaves a right end. -/
theorem atFront?_longest (hn : '\n' ∉ cs) (h : form.atFront? cs = some (digits, right)) :
    ∃ c : Connector, c.form = form ∧ c.digits = digits ∧ cs = c.text ++ right ∧ right ≠ [] ∧
      ∀ (c' : Connector) right', c'.form = form → cs = c'.text ++ right' → right' ≠ [] → c'.text.length ≤ c.text.length := by
  obtain ⟨before, ⟨d, tail⟩, after, hreadings, hfound, hbefore⟩ := List.findSome?_eq_some_iff.mp h
  obtain ⟨r, hr, he⟩ := Option.map_eq_some_iff.mp hfound
  cases he
  have hmem : (digits, tail) ∈ form.readings cs := by
    rw [hreadings]
    exact List.mem_append_right _ List.mem_cons_self
  obtain ⟨c, hform, hdigits, hcs⟩ := front_of_mem_readings hmem
  have hfeed : '\n' ∉ tail := fun hm => hn (hcs ▸ List.mem_append_right _ hm)
  obtain ⟨hne, rfl⟩ := rightEnd?_eq hfeed hr
  refine ⟨c, hform, hdigits, hcs, hne, ?_⟩
  intro c' right' hform' hcs' hne'
  have hmem' : (c'.digits, right') ∈ form.readings cs := by
    have hin := mem_readings c' right'
    rwa [hform', ← hcs'] at hin
  have hsorted := readings_sorted form cs
  rw [hreadings] at hmem' hsorted
  have hlengths : right.length ≤ right'.length := by
    rcases List.mem_append.mp hmem' with hm | hm
    · -- What comes before the reading that is found leaves no right end, but this one does.
      have hend : rightEnd? right' = some right' :=
        rightEnd?_self hne' fun hm => hn (hcs' ▸ List.mem_append_right _ hm)
      have hnone : (rightEnd? right').map (c'.digits, ·) = none := hbefore _ hm
      rw [hend] at hnone
      cases hnone
    · rcases List.mem_cons.mp hm with he | hm
      · rw [(Prod.mk.inj he).2]
      · exact (List.pairwise_cons.mp (List.pairwise_append.mp hsorted).2.1).1 _ hm
  have htotal := congrArg List.length (hcs.symm.trans hcs')
  rw [List.length_append, List.length_append] at htotal
  omega

theorem exists_atFront? (c : Connector) (hright : right ≠ []) (hn : '\n' ∉ right) :
    ∃ found, c.form.atFront? (c.text ++ right) = some found := by
  have hend : (rightEnd? right).map (c.digits, ·) = some (c.digits, right) := by
    rw [rightEnd?_self hright hn]
    rfl
  rw [← Option.isSome_iff_exists, atFront?, List.findSome?_isSome_iff]
  exact ⟨_, mem_readings c right, Option.isSome_iff_exists.mpr ⟨_, hend⟩⟩

end Form

theorem Cut.behind {a : Char} (hn : '\n' ∉ cs) (h : Cut form (a :: cs) left c right)
    (hnone : form.atFront? cs = none) : ∃ left', left = a :: left' ∧ Cut form cs left' c right := by
  obtain ⟨rfl, hwhole, hleft, hright⟩ := h
  cases left with
  | nil => exact absurd rfl hleft
  | cons b left =>
    obtain ⟨rfl, hrest⟩ := List.cons.inj hwhole
    refine ⟨left, rfl, rfl, hrest, ?_, hright⟩
    rintro rfl
    obtain rfl : cs = c.text ++ right := hrest
    have hfeed : '\n' ∉ right := fun hm => hn (List.mem_append_right _ hm)
    obtain ⟨found, hfound⟩ := Form.exists_atFront? c hright hfeed
    rw [hfound] at hnone
    cases hnone

namespace Form

theorem exists_find? (hn : '\n' ∉ cs) (h : Cut form cs left c right) : ∃ found, form.find? cs = some found := by
  induction cs generalizing left with
  | nil =>
    have hnil := h.whole
    rw [List.append_assoc, eq_comm, List.append_eq_nil_iff] at hnil
    exact absurd hnil.1 h.left_ne
  | cons a cs ih =>
    rw [List.mem_cons, not_or] at hn
    rw [find?, if_neg (Ne.symm hn.1)]
    cases hfront : form.atFront? cs with
    | some found => exact ⟨_, rfl⟩
    | none =>
      obtain ⟨left', -, hcut⟩ := h.behind hn.2 hfront
      obtain ⟨found, hfound⟩ := ih hn.2 hcut
      rw [hfound]
      exact ⟨_, rfl⟩

/-- A form finds the first cut. -/
theorem find?_first (hn : '\n' ∉ cs) (h : form.find? cs = some (left, digits, right)) :
    ∃ c, c.digits = digits ∧ FirstCut form cs left c right := by
  induction cs generalizing left with
  | nil => cases h
  | cons a cs ih =>
    rw [List.mem_cons, not_or] at hn
    rw [find?, if_neg (Ne.symm hn.1)] at h
    cases hfront : form.atFront? cs with
    | some found =>
      rw [hfront] at h
      cases h
      obtain ⟨c, hform, hdigits, rfl, hright, hlongest⟩ := atFront?_longest hn.2 hfront
      refine ⟨c, hdigits, ⟨hform, rfl, List.cons_ne_nil a [], hright⟩, ?_, ?_⟩
      · intro left' c' right' hcut
        exact List.length_pos_of_ne_nil hcut.left_ne
      · intro c' right' hcut
        exact hlongest c' right' hcut.ofForm (List.cons.inj hcut.whole).2 hcut.right_ne
    | none =>
      rw [hfront] at h
      obtain ⟨⟨left, found⟩, hfound, he⟩ := Option.map_eq_some_iff.mp h
      cases he
      obtain ⟨c, hdigits, hcut, hshortest, hlongest⟩ := ih hn.2 hfound
      refine ⟨c, hdigits, ⟨hcut.ofForm, by rw [hcut.whole]; rfl, List.cons_ne_nil a left, hcut.right_ne⟩, ?_, ?_⟩
      · intro left' c' right' h'
        obtain ⟨left'', rfl, h''⟩ := h'.behind hn.2 hfront
        exact Nat.succ_le_succ (hshortest left'' c' right' h'')
      · intro c' right' h'
        obtain ⟨left'', he, h''⟩ := h'.behind hn.2 hfront
        cases he
        exact hlongest c' right' h''

/-! ### Marks -/

/-- The pairs of characters of which every form but the single dash has one. -/
def pairs : List (List Char) := [['-', '>'], ['<', '-'], ['-', '-']]

theorem exists_plain (h : form.mark? = some mark) : ∃ c : Connector, c.form = form ∧ c.text = mark := by
  cases form <;> cases h
  case both => exact ⟨.both none, rfl, rfl⟩
  case forward => exact ⟨.forward false none, rfl, rfl⟩
  case backward => exact ⟨.backward none, rfl, rfl⟩
  case dashes => exact ⟨.dashes none, rfl, rfl⟩

theorem exists_pair (c : Connector) (h : c.form ≠ .single) : ∃ pair ∈ pairs, pair <:+: c.text := by
  cases c with
  | both w => cases w <;> exact ⟨['<', '-'], by decide, List.infix_append' [] _ _⟩
  | forward long w =>
    refine ⟨['-', '>'], by decide, ?_⟩
    cases long <;> cases w
    case false.none => exact List.infix_rfl
    case true.none => exact (List.suffix_cons '-' _).isInfix
    case false.some w => exact (List.suffix_append (['-'] ++ w.digits) _).isInfix
    case true.some w => exact (List.suffix_append (['-', '-'] ++ w.digits) _).isInfix
  | backward w => cases w <;> exact ⟨['<', '-'], by decide, List.infix_append' [] _ _⟩
  | dashes w =>
    refine ⟨['-', '-'], by decide, ?_⟩
    cases w with
    | none => exact List.infix_rfl
    | some w => exact (List.suffix_append (['-'] ++ w.digits) _).isInfix
  | single w => exact absurd rfl h

/-- A form with a mark finds nothing where none of the pairs is. -/
theorem split?_without_pairs (hform : form ≠ .single) (h : ∀ pair ∈ pairs, ¬ pair <:+: cs) :
    form.split? cs = none := by
  rw [Option.eq_none_iff_forall_ne_some]
  rintro ⟨left, digits, right⟩ hs
  have htext : ∃ (c : Connector) (tail : List Char), c.form = form ∧ cs = left ++ c.text ++ tail := by
    rcases split?_eq hs with hfind | ⟨mark, hmark, hcs⟩
    · obtain ⟨c, tail, hc, -, -, hcs, -⟩ := find?_eq hfind
      exact ⟨c, tail, hc, hcs⟩
    · obtain ⟨c, hc, rfl⟩ := exists_plain hmark
      exact ⟨c, right, hc, hcs⟩
  obtain ⟨c, tail, rfl, rfl⟩ := htext
  obtain ⟨pair, hpair, hin⟩ := exists_pair c hform
  exact h pair hpair (hin.trans (List.infix_append left c.text tail))

/-- A text in which a form finds nothing does not hold its mark. -/
theorem mark_not_in (h : form.split? cs = none) (hmark : form.mark? = some mark) : ¬ mark <:+: cs := by
  unfold split? at h
  cases hfind : form.find? cs with
  | some found =>
    rw [hfind] at h
    cases h
  | none =>
    rw [hfind, hmark] at h
    apply cutAt?_none
    rw [Option.eq_none_iff_forall_ne_some]
    rintro ⟨left, right⟩ hcut
    rw [Option.bind_eq_bind, Option.bind_some, hcut] at h
    cases h

/-- Two ends that are not empty come from a first cut: where there is none, the text is cut at the mark, and one
of the ends is empty. -/
theorem split?_first (hn : '\n' ∉ cs) (h : form.split? cs = some (left, digits, right)) (hleft : left ≠ [])
    (hright : right ≠ []) : ∃ c, c.digits = digits ∧ FirstCut form cs left c right := by
  rcases split?_eq h with hfind | ⟨mark, hmark, hcs⟩
  · exact find?_first hn hfind
  · obtain ⟨c, hform, rfl⟩ := exists_plain hmark
    obtain ⟨found, hfind⟩ := exists_find? hn ⟨hform, hcs, hleft, hright⟩
    rw [split?, hfind] at h
    cases h
    exact find?_first hn hfind

end Form

/-! ### Links and declarations -/

/-- The link of two ends with a connector between them. -/
def Connector.link (c : Connector) (left right : List Char) : Link :=
  if c.form.isReversed then ⟨trim right, trim left, c.weight, c.form.kind⟩
  else ⟨trim left, trim right, c.weight, c.form.kind⟩

theorem weight_of_weightOf {n : Nat} (h : weightOf c.digits = .ok n) : n = c.weight := by
  by_cases hlimit : c.digits.length ≤ digitLimit
  · rw [weightOf_digits hlimit] at h
    exact (Except.ok.inj h).symm
  · have hne : c.digits ≠ [] := fun hnil => hlimit (by rw [hnil]; exact Nat.zero_le _)
    simp [weightOf, wholeOfDigits?, hlimit, hne] at h

theorem trim_ne {cs : List Char} (h : trim cs ≠ []) : cs ≠ [] := by
  rintro rfl
  exact h rfl

/-- A link between two names is that of a first cut, and of one at a single dash only where no pair is. -/
theorem readLink_first {l : Link} (hn : '\n' ∉ cs) (h : readLink cs = .ok (some l)) (hsource : l.source ≠ [])
    (htarget : l.target ≠ []) :
    ∃ form left c right, FirstCut form cs left c right ∧ trim left ≠ [] ∧ trim right ≠ [] ∧
      (form = .single → ∀ pair ∈ Form.pairs, ¬ pair <:+: cs) ∧ l = c.link left right := by
  obtain ⟨form, left, digits, right, hsplit, hbefore, hlink⟩ := readLink_form h
  obtain ⟨weight, hweight, hlink⟩ := bind_eq_ok hlink
  have hends : trim left ≠ [] ∧ trim right ≠ [] ∧
      l = if form.isReversed then ⟨trim right, trim left, weight, form.kind⟩
        else ⟨trim left, trim right, weight, form.kind⟩ := by
    split at hlink
    · rename_i hreversed
      cases hlink
      exact ⟨htarget, hsource, (if_pos hreversed).symm⟩
    · rename_i hstraight
      cases hlink
      exact ⟨hsource, htarget, (if_neg hstraight).symm⟩
  obtain ⟨hleft, hright, hl⟩ := hends
  obtain ⟨c, rfl, hcut⟩ := Form.split?_first hn hsplit (trim_ne hleft) (trim_ne hright)
  refine ⟨form, left, c, right, hcut, hleft, hright, ?_, ?_⟩
  · -- The single dash is tried last.
    rintro rfl pair hpair
    simp only [Form.pairs, List.mem_cons, List.not_mem_nil, or_false] at hpair
    rcases hpair with rfl | rfl | rfl
    · exact Form.mark_not_in (hbefore .forward (by decide)) rfl
    · exact Form.mark_not_in (hbefore .backward (by decide)) rfl
    · exact Form.mark_not_in (hbefore .dashes (by decide)) rfl
  · rw [hl, weight_of_weightOf hweight, Connector.link, hcut.ofForm]

/-- There is no link where there is neither a pair nor a single dash with a weight between two ends. -/
theorem readLink_none (hpairs : ∀ pair ∈ Form.pairs, ¬ pair <:+: cs)
    (hsingle : ∀ left c right, ¬ Cut .single cs left c right) (hn : '\n' ∉ cs) : readLink cs = .ok none := by
  have hnone : (Form.all.findSome? fun form => (form.split? cs).map (form, ·)) = none := by
    rw [List.findSome?_eq_none_iff]
    intro form _
    rw [Option.map_eq_none_iff]
    by_cases hform : form = .single
    · rw [Option.eq_none_iff_forall_ne_some]
      rintro ⟨left, digits, right⟩ hsplit
      rcases Form.split?_eq hsplit with hfind | ⟨mark, hmark, -⟩
      · obtain ⟨c, -, hcut⟩ := Form.find?_first hn hfind
        exact hsingle left c right (hform ▸ hcut.toCut)
      · rw [hform] at hmark
        cases hmark
    · exact Form.split?_without_pairs hform hpairs
  rw [readLink, hnone]

/-- Every edge that a line declares is the first cut of what stands before its label, by a connector of one form,
and of a single dash only where no other connector can be. A line without any connector declares nothing. -/
theorem edges_are_first_cuts {line : List Char} (hline : '\n' ∉ line) :
    (∀ d notices, matchEdge line = .ok (some d, notices) →
      ∃ form left c right, FirstCut form (cutLabel line).1 left c right ∧ trim left ≠ [] ∧ trim right ≠ [] ∧
        (form = .single → ∀ pair ∈ Form.pairs, ¬ pair <:+: (cutLabel line).1) ∧
        d = .edge ((c.link left right).declares (cutLabel line).2)) ∧
    ((∀ pair ∈ Form.pairs, ¬ pair <:+: (cutLabel line).1) →
      (∀ left c right, ¬ Cut .single (cutLabel line).1 left c right) → matchEdge line = .ok (none, [])) := by
  have hn : '\n' ∉ (cutLabel line).1 := fun hm => hline ((List.takeWhile_prefix _).subset hm)
  constructor
  · intro d notices h
    obtain ⟨link, hread, hsource, htarget, rfl⟩ := matchEdge_link h
    obtain ⟨form, left, c, right, hcut, hleft, hright, hpairs, rfl⟩ := readLink_first hn hread hsource htarget
    exact ⟨form, left, c, right, hcut, hleft, hright, hpairs, rfl⟩
  · intro hpairs hsingle
    unfold matchEdge
    dsimp only
    rw [readLink_none hpairs hsingle hn]
    rfl

/-- A name may hold what would be a connector behind a shorter one, and one dash alone connects nothing. -/
theorem first_cut_of_dashed_name :
    (∃ form left c right, FirstCut form ['x', '-', '1', '-', 'y', '-', '-', '>', ' ', 'z'] left c right ∧
      (c.link left right).declares [' ', 'o', 'n'] =
        { source := "x-1-y", target := "z", label := some "on", kind := .arrow }) ∧
    matchEdge ['A', '-', 'B'] = .ok (none, []) := by
  constructor
  · have hread : matchEdge ['x', '-', '1', '-', 'y', '-', '-', '>', ' ', 'z', ':', ' ', 'o', 'n'] =
        .ok (some (.edge { source := "x-1-y", target := "z", label := some "on", kind := .arrow }), []) := rfl
    obtain ⟨form, left, c, right, hcut, -, -, -, hd⟩ :=
      (edges_are_first_cuts (by decide)).1 _ _ hread
    exact ⟨form, left, c, right, hcut, (Declaration.edge.inj hd).symm⟩
  · refine (edges_are_first_cuts (by decide)).2 (by decide) ?_
    rintro left c right ⟨hform, hwhole, -, -⟩
    cases c with
    | single w =>
      have hcount := congrArg (List.count '-') hwhole
      have hone : List.count '-' (cutLabel ['A', '-', 'B']).1 = 1 := by decide
      simp only [Connector.text, List.count_append, hone, List.count_singleton_self] at hcount
      omega
    | both w | forward long w | backward w | dashes w => cases hform

end NodeLink.Source
