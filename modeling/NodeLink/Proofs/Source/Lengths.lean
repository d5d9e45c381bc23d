import NodeLink.Proofs.Source.LongNumbers

/-!
# How much a text brings along

Names and labels are stretches of the text. A text has no more statements than characters, and a statement declares
at most two nodes and one edge.
-/

namespace NodeLink.Source

open NodeLink.Text

variable {cs text line : List Char} {D : List Declaration}

/-- The names and the label of a declaration are stretches of the text. -/
structure Declaration.Within (text : List Char) (d : Declaration) : Prop where
  names : ∀ id ∈ d.mentioned, id.toList <:+: text
  label : ∀ e ∈ d.edge?, ∀ label ∈ e.label, label.toList <:+: text

theorem Declaration.Within.mono {d : Declaration} (h : d.Within line) (hline : line <:+: text) : d.Within text :=
  ⟨fun id hid => (h.names id hid).trans hline, fun e he label hlabel => (h.label e he label hlabel).trans hline⟩

theorem Form.split?_ends {form : Form} {left digits right : List Char}
    (h : form.split? cs = some (left, digits, right)) : left <:+: cs ∧ right <:+: cs := by
  unfold split? at h
  split at h
  · rename_i found hfind
    obtain ⟨c, tail, -, -, -, rfl, hright⟩ := find?_eq (hfind.trans h)
    have hend : right <+: tail := by
      unfold rightEnd? at hright
      dsimp only at hright
      split at hright
      · cases hright
        exact List.takeWhile_prefix _
      · cases hright
    constructor
    · exact ⟨[], c.text ++ tail, by simp⟩
    · exact hend.isInfix.trans ⟨left ++ c.text, [], by simp⟩
  · obtain ⟨mark, -, h⟩ := Option.bind_eq_some_iff.mp h
    obtain ⟨⟨l, r⟩, hcut, he⟩ := Option.bind_eq_some_iff.mp h
    cases he
    rw [cutAt?_eq hcut]
    constructor
    · exact ⟨[], mark ++ right, by simp⟩
    · exact ⟨left ++ mark, [], by simp⟩

theorem readLink_within {link : Link} (h : readLink cs = .ok (some link)) :
    link.source <:+: cs ∧ link.target <:+: cs := by
  obtain ⟨form, left, digits, right, hsplit, -, hlink⟩ := readLink_form h
  obtain ⟨hleft, hright⟩ := Form.split?_ends hsplit
  obtain ⟨weight, -, hlink⟩ := bind_eq_ok hlink
  split at hlink
  · cases hlink
    exact ⟨(trim_within _).trans hright, (trim_within _).trans hleft⟩
  · cases hlink
    exact ⟨(trim_within _).trans hleft, (trim_within _).trans hright⟩

/-- The ends of an edge stand in front of the first colon and its label behind it. -/
structure EdgeDecl.Cut (line : List Char) (e : EdgeDecl) : Prop where
  source : e.source.toList <:+: (cutLabel line).1
  target : e.target.toList <:+: (cutLabel line).1
  label : ∀ label ∈ e.label, label.toList <:+: (cutLabel line).2

theorem matchEdge_cut {d : Declaration} {notices : List Notice} (h : matchEdge line = .ok (some d, notices)) :
    ∃ e, d = .edge e ∧ e.Cut line := by
  obtain ⟨link, hread, -, -, rfl⟩ := matchEdge_link h
  obtain ⟨hsource, htarget⟩ := readLink_within hread
  refine ⟨_, rfl, by rwa [Link.declares, String.toList_ofList], by rwa [Link.declares, String.toList_ofList],
    fun label hgiven => ?_⟩
  have hlabel : nonEmpty? (trim (cutLabel line).2) = some label := hgiven
  unfold nonEmpty? at hlabel
  split at hlabel
  · cases hlabel
  · cases hlabel
    rw [String.toList_ofList]
    exact trim_within _

theorem matchEdge_within {d : Declaration} {notices : List Notice} (h : matchEdge line = .ok (some d, notices)) :
    d.Within line := by
  have hends : (cutLabel line).1 <:+: line := (List.takeWhile_prefix _).isInfix
  have hlabel : (cutLabel line).2 <:+: line :=
    ((List.drop_suffix 1 _).trans (List.dropWhile_suffix _)).isInfix
  obtain ⟨e, rfl, hcut⟩ := matchEdge_cut h
  constructor
  · intro id hid
    simp only [Declaration.mentioned, List.mem_cons, List.not_mem_nil, or_false] at hid
    rcases hid with rfl | rfl
    · exact hcut.source.trans hends
    · exact hcut.target.trans hends
  · rintro e' he label hgiven
    cases he
    exact (hcut.label label hgiven).trans hlabel

theorem matchNode_within {d : Declaration} (h : matchNode (words line) = .ok (some d)) : d.Within line := by
  obtain ⟨first, id, rest, color, size, hwords, -, -, rfl⟩ := matchNode_node h
  refine ⟨fun name hname => ?_, nofun⟩
  have hid : id ∈ words line := by
    rw [hwords]
    exact List.mem_cons_of_mem _ List.mem_cons_self
  rw [List.mem_singleton.mp hname, String.toList_ofList]
  exact words_within hid

theorem readLine_within {d : Declaration} {notices : List Notice} (h : readLine line = .ok (some d, notices)) :
    d.Within line := by
  rcases readLine_some h with h | h | h
  · obtain ⟨rest, -, h⟩ := Option.map_eq_some_iff.mp h
    cases h
    exact ⟨nofun, nofun⟩
  · exact matchNode_within h
  · exact matchEdge_within h

/-- No two declarations come from the same line. -/
theorem length_declarations {lines : List (List Char)} (h : declarations lines = .ok D) : D.length ≤ lines.length := by
  induction lines generalizing D with
  | nil =>
    cases h
    exact Nat.le_refl 0
  | cons line rest ih =>
    obtain ⟨⟨decl, notices⟩, -, h⟩ := bind_eq_ok h
    obtain ⟨more, hr, h⟩ := bind_eq_ok h
    cases h
    have hlength := ih hr
    have hone : decl.toList.length ≤ 1 := by cases decl <;> simp
    rw [List.length_append, List.length_cons]
    omega

theorem declarations_within {lines : List (List Char)} (h : declarations lines = .ok D) :
    ∀ d ∈ D, ∃ line ∈ lines, d.Within line := by
  intro d hd
  obtain ⟨line, hline, notices, hread⟩ := declarations_lines h d hd
  exact ⟨line, hline, readLine_within hread⟩

theorem length_lines (text : List Char) : (lines text).length ≤ text.length := by
  fun_induction lines text with
  | case1 => exact Nat.le_refl 0
  | case2 cs ih =>
    simp only [List.length_cons]
    omega
  | case3 c cs hpair hc ih =>
    simp only [List.length_cons]
    omega
  | case4 c cs hpair hc hlines ih =>
    simp only [List.length_cons, List.length_nil]
    omega
  | case5 c cs hpair hc l ls hlines ih =>
    rw [hlines] at ih
    simp only [List.length_cons] at ih ⊢
    omega

theorem length_statements (text : List Char) : (statements text).length ≤ text.length := by
  calc (statements text).length ≤ ((lines text).map trim).length := List.length_filter_le _ _
    _ = (lines text).length := List.length_map trim
    _ ≤ text.length := length_lines text

theorem length_idsOf (D : List Declaration) : (idsOf D).length ≤ 2 * D.length := by
  induction D using List.reverseRecOn with
  | nil => exact Nat.le_refl 0
  | append_singleton D d ih =>
    have hone (ids : List String) (id : String) : (withId ids id).length ≤ ids.length + 1 := by
      unfold withId
      split <;> simp
    have hids : (d.mentioned.foldl withId (idsOf D)).length ≤ (idsOf D).length + 2 := by
      cases d with
      | title given => exact Nat.le_add_right _ 2
      | node n => exact (hone _ _).trans (by omega)
      | edge e => exact (hone _ _).trans (Nat.succ_le_succ (hone _ _))
    rw [idsOf_concat, List.length_append, List.length_singleton]
    omega

end NodeLink.Source
