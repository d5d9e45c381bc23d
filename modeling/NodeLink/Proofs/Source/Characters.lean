import NodeLink.Proofs.Source.Lengths
import NodeLink.Proofs.Svg.Escaping

/-!
# Which characters a text brings along

Titles, names, labels and colours of a graph are made of characters of its text. No line break gets into them, and what
does not stand in the text itself, like the code of a named colour, is plain. No colon gets into the ends of an edge.
-/

namespace NodeLink

/-- A character of the text that ends no line, or a plain one. -/
def Written (text : List Char) (c : Char) : Prop := c ∈ text ∧ Text.isLineBreak c = false ∨ isPlain c = true

def Json.Written (text : List Char) (value : Json) : Prop :=
  ∀ s, value = .text s → ∀ c ∈ s.toList, NodeLink.Written text c

theorem Json.written_text {text : List Char} {s : String} (h : ∀ c ∈ s.toList, NodeLink.Written text c) :
    Json.Written text (.text s) := by
  intro s' hs
  cases hs
  exact h

theorem Json.written_optional {text : List Char} {given : Option String}
    (h : ∀ s ∈ given, ∀ c ∈ s.toList, NodeLink.Written text c) : Json.Written text (Source.Outline.optional given) := by
  cases given with
  | none => exact nofun
  | some s => exact Json.written_text (h s rfl)

theorem not_written_feed (text : List Char) : ¬Written text '\n' := by
  rintro (⟨-, hbreak⟩ | hplain)
  · cases hbreak
  · cases hplain

structure Graph.Written (text : List Char) (g : Graph) : Prop where
  title : g.title.Written text
  ids : ∀ n ∈ g.nodes, n.id.Written text
  labels : ∀ n ∈ g.nodes, n.label.Written text
  colors : ∀ n ∈ g.nodes, n.color.Written text
  sources : ∀ e ∈ g.edges, e.source.Written text
  targets : ∀ e ∈ g.edges, e.target.Written text
  captions : ∀ e ∈ g.edges, e.label.Written text

namespace Source

open NodeLink.Text

variable {text line : List Char} {d : Declaration} {D : List Declaration} {g : Graph}

/-! ### Declarations -/

/-- The texts that a declaration brings along. -/
def Declaration.texts : Declaration → List String
  | .title given => given.toList
  | .node d => [d.id, d.color]
  | .edge d => d.source :: d.target :: d.label.toList

theorem plain_namedColors : ∀ entry ∈ namedColors, NodeLink.Plain entry.2.toList := by
  decide +kernel

theorem resolveColor_cases (token : List Char) :
    resolveColor token = String.ofList token ∨ NodeLink.Plain (resolveColor token).toList := by
  unfold resolveColor
  split
  · rename_i entry hfind
    exact Or.inr (plain_namedColors entry (List.mem_of_find?_eq_some hfind))
  · exact Or.inl rfl

theorem traits_color {color : Option String} {size : Option Nat} {tokens : List (List Char)}
    {found : Option String × Option Nat} (h : traits color size tokens = .ok found) :
    ∀ s ∈ found.1, s ∈ color ∨ ∃ token ∈ tokens, s = resolveColor token := by
  induction tokens generalizing color size with
  | nil =>
    cases h
    exact fun s hs => Or.inl hs
  | cons token tokens ih =>
    have hlater {s : String} (h : ∃ token ∈ tokens, s = resolveColor token) :
        ∃ t ∈ token :: tokens, s = resolveColor t := by
      obtain ⟨t, ht, hs⟩ := h
      exact ⟨t, List.mem_cons_of_mem token ht, hs⟩
    intro s hs
    unfold traits at h
    split at h
    · rcases ih h s hs with hfirst | hmore
      · exact Or.inr ⟨token, List.mem_cons_self, (Option.some.inj hfirst).symm⟩
      · exact Or.inr (hlater hmore)
    · split at h
      · obtain ⟨size', -, h⟩ := bind_eq_ok h
        exact (ih h s hs).imp_right hlater
      · exact (ih h s hs).imp_right hlater

/-- Texts of a declaration are stretches of its line, or plain. -/
def Declaration.Spelled (line : List Char) (d : Declaration) : Prop :=
  ∀ s ∈ d.texts, s.toList <:+: line ∨ NodeLink.Plain s.toList

theorem matchTitle_spelled (h : matchTitle line = some d) : d.Spelled line := by
  obtain ⟨rest, hlead, rfl⟩ := Option.map_eq_some_iff.mp h
  intro s hs
  have hgiven : nonEmpty? (trim rest) = some s := Option.mem_toList.mp hs
  unfold nonEmpty? at hgiven
  split at hgiven
  · cases hgiven
  · cases hgiven
    rw [String.toList_ofList, afterLead?_eq_some.mp hlead]
    exact Or.inl ((trim_within rest).trans (List.suffix_append _ rest).isInfix)

theorem matchNode_spelled (h : matchNode (words line) = .ok (some d)) : d.Spelled line := by
  have hwithin := matchNode_within h
  obtain ⟨first, id, rest, color, size, hwords, -, htraits, rfl⟩ := matchNode_node h
  intro s hs
  simp only [Declaration.texts, List.mem_cons, List.not_mem_nil, or_false] at hs
  rcases hs with rfl | rfl
  · exact Or.inl (hwithin.names _ List.mem_cons_self)
  · cases color with
    | none => exact Or.inr (.ofList (by decide))
    | some s =>
      rcases traits_color htraits s rfl with hnone | ⟨token, htoken, rfl⟩
      · cases hnone
      · have hstretch : token <:+: line :=
          words_within (hwords ▸ List.mem_cons_of_mem first (List.mem_cons_of_mem id htoken))
        rcases resolveColor_cases token with hself | hplain
        · refine Or.inl ?_
          rwa [Option.getD_some, hself, String.toList_ofList]
        · exact Or.inr hplain

theorem matchEdge_spelled {notices : List Notice} (h : matchEdge line = .ok (some d, notices)) : d.Spelled line := by
  have hwithin := matchEdge_within h
  obtain ⟨e, rfl, -⟩ := matchEdge_cut h
  intro s hs
  simp only [Declaration.texts, List.mem_cons, Option.mem_toList] at hs
  rcases hs with rfl | rfl | hs
  · exact Or.inl (hwithin.names _ List.mem_cons_self)
  · exact Or.inl (hwithin.names _ (List.mem_cons_of_mem _ List.mem_cons_self))
  · exact Or.inl (hwithin.label e rfl s hs)

theorem readLine_spelled {notices : List Notice} (h : readLine line = .ok (some d, notices)) : d.Spelled line := by
  rcases readLine_some h with h | h | h
  · exact matchTitle_spelled h
  · exact matchNode_spelled h
  · exact matchEdge_spelled h

/-! ### Graphs -/

theorem statements_unbroken (h : line ∈ statements text) : ∀ c ∈ line, c ∈ text ∧ isLineBreak c = false := by
  rw [statements_eq_parts] at h
  obtain ⟨part, hpart, hline⟩ := List.mem_flatMap.mp h
  have htrim : line = trim part := List.mem_singleton.mp (List.mem_of_mem_filter hline)
  intro c hc
  rw [htrim] at hc
  have hin : c ∈ part := (trim_within part).subset hc
  exact ⟨(splitAtEach_within hpart).subset hin, splitAtEach_parts hpart c hin⟩

theorem declarations_written (h : declarations (statements text) = .ok D) :
    ∀ d ∈ D, ∀ s ∈ d.texts, ∀ c ∈ s.toList, Written text c := by
  intro d hd s hs c hc
  obtain ⟨line, hline, notices, hread⟩ := declarations_lines h d hd
  rcases readLine_spelled hread s hs with hwithin | hplain
  · exact Or.inl (statements_unbroken hline c (hwithin.subset hc))
  · exact Or.inr (hplain c hc)

theorem titleOf_cases (D : List Declaration) :
    titleOf D = defaultTitle ∨ ∃ d ∈ D, titleOf D ∈ d.texts := by
  unfold titleOf
  cases h : (D.filterMap Declaration.title?).getLast? with
  | none =>
    rw [List.getLastD_eq_getLast?, h]
    exact Or.inl rfl
  | some title =>
    obtain ⟨d, hd, htitle⟩ := List.mem_filterMap.mp (List.mem_of_getLast? h)
    rw [List.getLastD_eq_getLast?, h]
    refine Or.inr ⟨d, hd, ?_⟩
    cases d with
    | title given => exact Option.mem_toList.mpr htitle
    | node n => cases htitle
    | edge e => cases htitle

theorem mem_texts_of_mentioned {id : String} (h : id ∈ d.mentioned) : id ∈ d.texts := by
  cases d with
  | title given => cases h
  | node n =>
    rw [List.mem_singleton.mp h]
    exact List.mem_cons_self
  | edge e =>
    rcases List.mem_cons.mp h with rfl | h
    · exact List.mem_cons_self
    · rw [List.mem_singleton.mp h]
      exact List.mem_cons_of_mem _ List.mem_cons_self

theorem written_of_parse (h : parse text = .ok g) : g.Written text := by
  obtain ⟨D, hread, hmeans⟩ := means_of_parse h
  have hwritten := declarations_written hread
  have hnode : ∀ n ∈ g.nodes, ∃ id ∈ idsOf D, n = recordOf D id := by
    intro n hn
    rw [Graph.nodes, hmeans.slots, List.map_map] at hn
    obtain ⟨id, hid, rfl⟩ := List.mem_map.mp hn
    exact ⟨id, hid, rfl⟩
  have hid : ∀ id ∈ idsOf D, ∀ c ∈ id.toList, Written text c := by
    intro id hid
    obtain ⟨d, hd, hmentioned⟩ := List.mem_flatMap.mp (List.mem_eraseDups.mp hid)
    exact hwritten d hd id (mem_texts_of_mentioned hmentioned)
  constructor
  · rw [hmeans.title]
    refine Json.written_text ?_
    rcases titleOf_cases D with htitle | ⟨d, hd, htitle⟩
    · rw [htitle]
      exact fun c hc => Or.inr ((NodeLink.Plain.ofList (by decide) : NodeLink.Plain defaultTitle.toList) c hc)
    · exact hwritten d hd _ htitle
  · intro n hn
    obtain ⟨id, hmem, rfl⟩ := hnode n hn
    exact Json.written_text (hid id hmem)
  · intro n hn
    obtain ⟨id, hmem, rfl⟩ := hnode n hn
    exact Json.written_text (hid id hmem)
  · intro n hn
    obtain ⟨id, -, rfl⟩ := hnode n hn
    refine Json.written_text ?_
    cases hlast : lastNode? D id with
    | none => exact fun c hc => Or.inr ((NodeLink.Plain.ofList (by decide) : NodeLink.Plain defaultColor.toList) c hc)
    | some d => exact hwritten _ (lastNode?_mem hlast).1 d.color (by simp [Declaration.texts])
  · intro e he
    obtain ⟨d, hd, hdraws⟩ := hmeans.declared e he
    rw [hdraws.source]
    exact Json.written_text (hwritten _ hd d.source (by simp [Declaration.texts]))
  · intro e he
    obtain ⟨d, hd, hdraws⟩ := hmeans.declared e he
    rw [hdraws.target]
    exact Json.written_text (hwritten _ hd d.target (by simp [Declaration.texts]))
  · intro e he
    obtain ⟨d, hd, hdraws⟩ := hmeans.declared e he
    rw [hdraws.label]
    exact Json.written_optional fun s hs => hwritten _ hd s (by simp [Declaration.texts, Option.mem_def.mp hs])

theorem cutLabel_no_colon (line : List Char) : ':' ∉ (cutLabel line).1 := by
  intro h
  have hne := List.mem_takeWhile_imp h
  simp at hne

theorem matchNode_no_edge {tokens : List (List Char)} {e : EdgeDecl} : matchNode tokens ≠ .ok (some (.edge e)) := by
  intro h
  obtain ⟨first, id, rest, color, size, -, -, -, he⟩ := matchNode_node h
  cases he

/-- The ends of edges hold no colon: a line is cut at its first one. -/
theorem ends_of_parse (h : parse text = .ok g) : ∀ e ∈ g.edges, ∃ source target,
    e.source = .text source ∧ e.target = .text target ∧ ':' ∉ source.toList ∧ ':' ∉ target.toList := by
  obtain ⟨D, hread, hmeans⟩ := means_of_parse h
  intro e he
  obtain ⟨d, hd, hdraws⟩ := hmeans.declared e he
  obtain ⟨line, -, notices, hline⟩ := declarations_lines hread _ hd
  have hcut : d.Cut line := by
    rcases readLine_some hline with h | h | h
    · obtain ⟨rest, -, he⟩ := Option.map_eq_some_iff.mp h
      cases he
    · exact absurd h matchNode_no_edge
    · obtain ⟨d', he, hcut⟩ := matchEdge_cut h
      cases he
      exact hcut
  exact ⟨_, _, hdraws.source, hdraws.target, fun hc => cutLabel_no_colon line (hcut.source.subset hc),
    fun hc => cutLabel_no_colon line (hcut.target.subset hc)⟩

end Source
end NodeLink
