import NodeLink.Proofs.Source.Characters
import NodeLink.Proofs.Source.Recognition

/-!
# Cuts at marks

Where a form has a mark but no connector, the text is cut at the mark, and one of the two ends is empty. The form that
decides over a line is the first one to find anything, so such a cut declares no edge: every edge, of a line or of a
whole text, has a connector of the form that decided.
-/

namespace NodeLink.Source

open NodeLink.Text

variable {cs digits left right line mark : List Char} {form : Form} {link : Link}

namespace Form

theorem earlier_total (form other : Form) : form = other ∨ form ∈ other.earlier ∨ other ∈ form.earlier := by
  cases form <;> cases other <;> decide

/-- Without a connector between two ends, a mark has nothing on one of its sides. -/
theorem cutAt?_empty_end (hn : '\n' ∉ cs) (hmark : form.mark? = some mark) (hfind : form.find? cs = none)
    (h : cutAt? mark cs = some (left, right)) : left = [] ∨ right = [] := by
  by_contra hends
  rw [not_or] at hends
  obtain ⟨c, hform, rfl⟩ := exists_plain hmark
  obtain ⟨found, hfound⟩ := exists_find? hn ⟨hform, cutAt?_eq h, hends.1, hends.2⟩
  rw [hfind] at hfound
  cases hfound

/-- Where there is no connector, a form finds two ends by its mark, and one of them is empty. -/
theorem split?_mark (hn : '\n' ∉ cs) (hfind : form.find? cs = none) (h : form.split? cs = some (left, digits, right)) :
    digits = [] ∧ (left = [] ∨ right = []) := by
  rw [split?, hfind] at h
  obtain ⟨mark, hmark, h⟩ := Option.bind_eq_some_iff.mp h
  obtain ⟨ends, hcut, he⟩ := Option.bind_eq_some_iff.mp h
  cases he
  exact ⟨rfl, cutAt?_empty_end hn hmark hfind hcut⟩

theorem split?_of_mark (hmark : form.mark? = some mark) (hfind : form.find? cs = none) (h : mark <:+: cs) :
    ∃ left right, cutAt? mark cs = some (left, right) ∧ form.split? cs = some (left, [], right) := by
  cases hcut : cutAt? mark cs with
  | none => exact absurd h (cutAt?_none hcut)
  | some ends =>
    refine ⟨ends.1, ends.2, rfl, ?_⟩
    rw [split?, hfind, hmark, Option.bind_eq_bind, Option.bind_some, hcut]
    rfl

theorem find?_of_split? (hn : '\n' ∉ cs) (h : form.split? cs = some (left, digits, right)) (hleft : left ≠ [])
    (hright : right ≠ []) : form.find? cs = some (left, digits, right) := by
  cases hfind : form.find? cs with
  | none => exact absurd (split?_mark hn hfind h).2 (not_or.mpr ⟨hleft, hright⟩)
  | some found =>
    rw [split?, hfind] at h
    exact h

theorem exists_link (form : Form) (left right : List Char) : ∃ link, form.link left [] right = .ok link := by
  cases form <;> exact ⟨_, rfl⟩

theorem link_ends (h : form.link left digits right = .ok link) :
    link.source = trim left ∧ link.target = trim right ∨ link.source = trim right ∧ link.target = trim left := by
  obtain ⟨weight, -, h⟩ := bind_eq_ok h
  split at h
  · cases h
    exact .inr ⟨rfl, rfl⟩
  · cases h
    exact .inl ⟨rfl, rfl⟩

end Form

/-- If a form only cuts a text at its mark and none before it has a connector, the link lacks an end. -/
theorem readLink_mark (hn : '\n' ∉ cs) (hfind : form.find? cs = none)
    (hsplit : form.split? cs = some (left, digits, right)) (hearlier : ∀ other ∈ form.earlier, other.find? cs = none) :
    ∃ link, readLink cs = .ok (some link) ∧ (link.source = [] ∨ link.target = []) := by
  have hsome : (Form.all.findSome? fun form => (form.split? cs).map (form, ·)).isSome = true := by
    rw [List.findSome?_isSome_iff]
    exact ⟨form, by cases form <;> decide, by rw [hsplit]; rfl⟩
  obtain ⟨⟨first, left', digits', right'⟩, hfirst⟩ := Option.isSome_iff_exists.mp hsome
  obtain ⟨hsplit', hbefore⟩ := Form.findSome?_first hfirst
  -- What decides is this form or one before it, and has no connector in either case.
  have hfind' : first.find? cs = none := by
    rcases Form.earlier_total first form with rfl | hin | hin
    · exact hfind
    · exact hearlier first hin
    · rw [hbefore form hin] at hsplit
      cases hsplit
  obtain ⟨rfl, hends⟩ := Form.split?_mark hn hfind' hsplit'
  obtain ⟨link, hlink⟩ := Form.exists_link first left' right'
  refine ⟨link, ?_, ?_⟩
  · rw [readLink, hfirst]
    dsimp only
    rw [hlink]
    rfl
  · rcases hends with rfl | rfl
    · exact (Form.link_ends hlink).imp And.left And.right
    · exact (Form.link_ends hlink).symm.imp And.left And.right

/-- A link that lacks an end declares nothing, and a notice says so. -/
theorem matchEdge_dropped (h : readLink (cutLabel line).1 = .ok (some link))
    (hlacks : link.source = [] ∨ link.target = []) :
    matchEdge line = .ok (none, [.droppedEdge (String.ofList line)]) := by
  have hends : (link.source.isEmpty || link.target.isEmpty) = true := by
    rw [Bool.or_eq_true, List.isEmpty_iff, List.isEmpty_iff]
    exact hlacks
  unfold matchEdge
  dsimp only
  rw [h]
  change (if (link.source.isEmpty || link.target.isEmpty) = true then _ else _) = _
  rw [if_pos hends]
  rfl

/-- An edge of a line has a connector of the first form that finds anything in it. -/
structure Connects (line : List Char) (form : Form) (e : EdgeDecl) : Prop where
  connector : ∃ left digits right link, form.find? (cutLabel line).1 = some (left, digits, right) ∧
    form.link left digits right = .ok link ∧ e = link.declares (cutLabel line).2
  first : ∀ other ∈ form.earlier, other.split? (cutLabel line).1 = none

theorem matchEdge_connects {d : Declaration} {notices : List Notice} (hn : '\n' ∉ (cutLabel line).1)
    (h : matchEdge line = .ok (some d, notices)) : ∃ form e, d = .edge e ∧ Connects line form e := by
  obtain ⟨link, hread, hsource, htarget, rfl⟩ := matchEdge_link h
  obtain ⟨form, left, digits, right, hsplit, hbefore, hlink⟩ := readLink_form hread
  have hends : trim left ≠ [] ∧ trim right ≠ [] := by
    obtain ⟨hs, ht⟩ | ⟨hs, ht⟩ := Form.link_ends hlink
    · exact ⟨hs ▸ hsource, ht ▸ htarget⟩
    · exact ⟨ht ▸ htarget, hs ▸ hsource⟩
  have hfind := Form.find?_of_split? hn hsplit (trim_ne hends.1) (trim_ne hends.2)
  exact ⟨form, _, rfl, ⟨left, digits, right, link, hfind, hlink, rfl⟩, hbefore⟩

/-- Where a form has no connector, its first mark has nothing on one side, and if none of the forms before it has a
connector either, the line declares nothing. So every edge that a line declares, and every edge of a graph that is read
from a text, has a connector of the form that decided. -/
theorem cuts_at_marks_declare_nothing :
    (∀ (cs : List Char) (form : Form) (mark : List Char), '\n' ∉ cs → form.mark? = some mark → form.find? cs = none →
      mark <:+: cs → ∃ left right, cutAt? mark cs = some (left, right) ∧ (left = [] ∨ right = []) ∧
        ∀ line, (cutLabel line).1 = cs → (∀ other ∈ form.earlier, other.find? cs = none) →
          matchEdge line = .ok (none, [.droppedEdge (String.ofList line)])) ∧
    (∀ line d notices, '\n' ∉ (cutLabel line).1 → matchEdge line = .ok (some d, notices) →
      ∃ form e, d = .edge e ∧ Connects line form e) ∧
    ∀ text g, parse text = .ok g → ∀ e ∈ g.edges, ∃ line ∈ statements text, ∃ form d,
      Connects line form d ∧ Draws d e := by
  refine ⟨?_, fun line d notices => matchEdge_connects, ?_⟩
  · intro cs form mark hn hmark hfind hin
    obtain ⟨left, right, hcut, hsplit⟩ := Form.split?_of_mark hmark hfind hin
    refine ⟨left, right, hcut, Form.cutAt?_empty_end hn hmark hfind hcut, ?_⟩
    rintro line rfl hearlier
    obtain ⟨link, hread, hlacks⟩ := readLink_mark hn hfind hsplit hearlier
    exact matchEdge_dropped hread hlacks
  · intro text g hparse e he
    obtain ⟨D, hread, hmeans⟩ := means_of_parse hparse
    obtain ⟨d, hd, hdraws⟩ := hmeans.declared e he
    obtain ⟨line, hline, notices, hdecl⟩ := declarations_lines hread _ hd
    have hn : '\n' ∉ (cutLabel line).1 := by
      intro hfeed
      have hbreak := (statements_unbroken hline '\n' ((List.takeWhile_prefix _).subset hfeed)).2
      cases hbreak
    have hedge : matchEdge line = .ok (some (.edge d), notices) := by
      rcases readLine_some hdecl with h | h | h
      · obtain ⟨rest, -, hd⟩ := Option.map_eq_some_iff.mp h
        cases hd
      · exact absurd h matchNode_no_edge
      · exact h
    obtain ⟨form, d', hd', hconnects⟩ := matchEdge_connects hn hedge
    cases hd'
    exact ⟨line, hline, form, d, hconnects, hdraws⟩

/-- An arrow without a target, an edge with a weight and a label, and a text of one edge. -/
theorem arrow_without_target_declares_nothing :
    matchEdge ['<', '-', 'A', ':', 'b'] = .ok (none, [.droppedEdge "<-A:b"]) ∧
    (∃ form, Connects ['A', '-', '3', '-', '>', 'B', ':', 'b'] form
      { source := "A", target := "B", label := some "b", weight := 3, kind := .arrow }) ∧
    ∃ g, parse ['A', '-', '-', 'B'] = .ok g ∧ ∃ e ∈ g.edges, ∃ line ∈ statements ['A', '-', '-', 'B'],
      ∃ form d, Connects line form d ∧ Draws d e := by
  obtain ⟨left, right, -, -, hdropped⟩ := cuts_at_marks_declare_nothing.1 ['<', '-', 'A'] .backward ['<', '-']
    (by decide) rfl (by decide) (by decide)
  obtain ⟨form, e, he, hconnects⟩ := cuts_at_marks_declare_nothing.2.1 ['A', '-', '3', '-', '>', 'B', ':', 'b'] _ []
    (by decide) (rfl : _ = Except.ok (some (Declaration.edge
      { source := "A", target := "B", label := some "b", weight := 3, kind := .arrow }), []))
  cases he
  exact ⟨hdropped _ rfl (by decide), ⟨form, hconnects⟩, _, rfl, _, List.mem_cons_self,
    cuts_at_marks_declare_nothing.2.2 ['A', '-', '-', 'B'] _ rfl _ List.mem_cons_self⟩

/-- A mark without a connector does not keep a form that is tried before it from finding one. -/
theorem arrow_behind_mark_declares_edge :
    Form.backward.mark? = some ['<', '-'] ∧ Form.backward.find? ['<', '-', 'A', '-', '>', 'B'] = none ∧
      cutAt? ['<', '-'] ['<', '-', 'A', '-', '>', 'B'] = some ([], ['A', '-', '>', 'B']) ∧
      matchEdge ['<', '-', 'A', '-', '>', 'B'] =
        .ok (some (.edge { source := "<-A", target := "B", kind := .arrow }), []) := by
  refine ⟨rfl, by decide, by decide, rfl⟩

end NodeLink.Source
