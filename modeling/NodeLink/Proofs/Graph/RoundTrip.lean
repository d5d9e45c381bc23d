import NodeLink.Proofs.Graph.Documents
import NodeLink.Proofs.Source.Meaning

/-!
# Round trips through documents

Every graph that was built from plain values is what its document is read as. The graphs of diagram texts
and of documents are among them.
-/

namespace NodeLink.Source

open NodeLink.Graph (Addition)

variable {D : List Declaration} {o : Outline} {g g' : Graph} {id : String}

theorem recordOf_cases (D : List Declaration) (id : String) :
    (∃ d, .node d ∈ D ∧ recordOf D id = Outline.nodeOf d) ∨ recordOf D id = .ofId (.text id) := by
  cases h : lastNode? D id with
  | some d => exact Or.inl ⟨d, (lastNode?_mem h).1, recordOf_declared h⟩
  | none => exact Or.inr (recordOf_undeclared h)

theorem made_recordOf (D : List Declaration) (id : String) : (Addition.node (recordOf D id)).Made := by
  rcases recordOf_cases D id with ⟨d, -, h⟩ | h
  · rw [h]
    exact .node (.text d.id) .null (.whole d.size) (.text d.color) (Outline.optional d.icon) .null .null
  · rw [h]
    exact .node (.text id) .null (.whole defaultSize) (.text defaultColor) .null .null .null

theorem joined_eq_ok {d : EdgeDecl} (h : Outline.joined g d = .ok g') :
    g' = g ∨ ∃ e, g.addEdge (Outline.edgeOf d) = .ok (g', e) := by
  unfold Outline.joined at h
  obtain ⟨source, -, h⟩ := bind_eq_ok h
  obtain ⟨target, -, h⟩ := bind_eq_ok h
  split at h
  · obtain ⟨⟨after, e⟩, hadd, h⟩ := bind_eq_ok h
    cases h
    exact Or.inr ⟨e, hadd⟩
  · cases h
    exact Or.inl rfl

/-- An edge that an outline adds has a text as its id, whether it is the derived or a numbered one. -/
theorem text_id_of_addEdge {d : EdgeDecl} {e : Edge} (h : g.addEdge (Outline.edgeOf d) = .ok (g', e)) :
    ∃ id, e.id = .text id := by
  obtain ⟨-, -, hgains⟩ := Graph.gains_of_addEdge h
  by_cases ht : g.Taken (Outline.edgeOf d).id
  · obtain ⟨n, -, -, hid⟩ := hgains.numbered ht
    exact ⟨_, hid⟩
  · exact ⟨_, hgains.kept ht⟩

/-- A built graph whose edges have texts as their ids. -/
structure Textual (g : Graph) : Prop where
  built : g.Built
  ids : ∀ e ∈ g.edges, ∃ id, e.id = .text id

theorem textual_joined {d : EdgeDecl} (h : Textual g) (hstep : Outline.joined g d = .ok g') : Textual g' := by
  rcases joined_eq_ok hstep with rfl | ⟨e, hadd⟩
  · exact h
  · obtain ⟨-, -, hgains⟩ := Graph.gains_of_addEdge hadd
    refine ⟨.add (a := .edge (Outline.edgeOf d)) h.built (.edge _ _ _ _ _ _ _) ?_, ?_⟩
    · simp only [Graph.add, hadd, bind, Except.bind, pure, Except.pure]
    · intro b hb
      rw [hgains.graph] at hb
      rcases List.mem_append.mp hb with hb | hb
      · exact h.ids b hb
      · rw [List.mem_singleton.mp hb]
        exact text_id_of_addEdge hadd

theorem textual_addNode {n : Node} (h : Textual g) (made : (Addition.node n).Made)
    (hstep : g.addNode n = .ok g') : Textual g' := by
  refine ⟨.add h.built made hstep, ?_⟩
  obtain ⟨key, -, hput⟩ := bind_eq_ok hstep
  cases hput
  exact h.ids

/-- The graph of an outline is built from the nodes and edges it holds. -/
theorem textual_build (hslots : o.slots = slotsOf (recordOf D) (idsOf D)) (h : o.build = .ok g) :
    Textual g := by
  unfold Outline.build at h
  obtain ⟨placed, hplaced, h⟩ := bind_eq_ok h
  have htextual : Textual placed := by
    refine foldlM_keeps ?_ ⟨.empty _, nofun⟩ hplaced
    intro n hn s s' hs hstep
    rw [hslots] at hn
    obtain ⟨slot, hslot, rfl⟩ := List.mem_map.mp hn
    obtain ⟨id, -, rfl⟩ := List.mem_map.mp hslot
    exact textual_addNode hs (made_recordOf D id) hstep
  refine foldlM_keeps ?_ htextual h
  intro d _ s s' hs hstep
  exact textual_joined hs hstep

theorem titleOf_ne_empty (hD : ∀ d ∈ D, d.Proper) : titleOf D ≠ "" := by
  unfold titleOf
  rw [List.getLastD_eq_getLast?]
  cases hlast : (D.filterMap Declaration.title?).getLast? with
  | none => decide
  | some title =>
    obtain ⟨decl, hm, ht⟩ := List.mem_filterMap.mp (List.mem_of_getLast? hlast)
    have hproper := hD decl hm
    cases decl with
    | title given =>
      rintro rfl
      exact hproper ht
    | node d => cases ht
    | edge d => cases ht

theorem plain_optional (text : Option String) : (Outline.optional text).Plain := by
  cases text with
  | none => exact .null
  | some s => exact .text s

theorem recordOf_plain (hD : ∀ d ∈ D, d.Proper) (id : String) :
    ∀ v ∈ [(recordOf D id).label, (recordOf D id).size, (recordOf D id).color, (recordOf D id).icon,
      (recordOf D id).x, (recordOf D id).y], v.Plain := by
  intro v hv
  rcases recordOf_cases D id with ⟨d, hd, h⟩ | h
  · have hsize : d.size < 10 ^ Text.digitLimit := hD (.node d) hd
    simp only [h, Outline.nodeOf, Node.made, List.mem_cons, List.not_mem_nil, or_false] at hv
    rcases hv with rfl | rfl | rfl | rfl | rfl | rfl
    · exact .text d.id
    · exact .number hsize
    · exact .text d.color
    · exact plain_optional d.icon
    · exact .null
    · exact .null
  · simp only [h, Node.ofId, List.mem_cons, List.not_mem_nil, or_false] at hv
    rcases hv with rfl | rfl | rfl | rfl | rfl | rfl
    · exact .text id
    · exact .number (Text.lt_limit (by decide))
    · exact .text defaultColor
    · exact .null
    · exact .null
    · exact .null

theorem edge_plain {d : EdgeDecl} {e : Edge} (hw : d.weight < 10 ^ Text.digitLimit) (hd : Draws d e)
    (hid : ∃ id, e.id = .text id) :
    ∀ v ∈ [e.id, e.source, e.target, e.label, e.size, e.color], v.Plain := by
  obtain ⟨id, hid⟩ := hid
  intro v hv
  simp only [hid, hd.source, hd.target, hd.label, hd.size, hd.color, List.mem_cons, List.not_mem_nil,
    or_false] at hv
  rcases hv with rfl | rfl | rfl | rfl | rfl | rfl
  · exact .text id
  · exact .text d.source
  · exact .text d.target
  · exact plain_optional d.label
  · exact .number hw
  · exact .null

theorem plain_of_means (hD : ∀ d ∈ D, d.Proper) (hm : Means D g)
    (hids : ∀ e ∈ g.edges, ∃ id, e.id = .text id) : g.Plain := by
  have hnode {n : Node} (hn : n ∈ g.nodes) : ∃ id, n = recordOf D id := by
    rw [Graph.nodes, hm.slots, List.map_map] at hn
    obtain ⟨id, -, rfl⟩ := List.mem_map.mp hn
    exact ⟨id, rfl⟩
  constructor
  · rw [hm.title]
    simpa [Json.isGiven] using titleOf_ne_empty hD
  · rw [hm.title]
    exact .text _
  · intro n hn
    obtain ⟨id, rfl⟩ := hnode hn
    exact ⟨id, rfl⟩
  · intro n hn
    obtain ⟨id, rfl⟩ := hnode hn
    exact recordOf_plain hD id
  · intro e he
    obtain ⟨d, hdecl, hdraws⟩ := hm.declared e he
    exact edge_plain (hD (.edge d) hdecl) hdraws (hids e he)

/-- The graph of a diagram text is built, and all its fields hold plain values. -/
theorem built_of_parse {text : List Char} (h : parse text = .ok g) : g.Built ∧ g.Plain := by
  obtain ⟨o, hread, hbuild⟩ := bind_eq_ok h
  rw [readStatements_eq] at hread
  cases hdecl : declarations (statements text) with
  | error f =>
    rw [hdecl] at hread
    cases hread
  | ok D =>
    rw [hdecl] at hread
    cases hread
    have holds := holds_foldl D
    have htextual := textual_build holds.slots hbuild
    obtain ⟨g', hbuild', hmeans⟩ := build_means holds
    rw [hbuild] at hbuild'
    cases hbuild'
    exact ⟨htextual.built, plain_of_means (declarations_proper hdecl) hmeans htextual.ids⟩

end NodeLink.Source

namespace NodeLink.Graph

/-- A node without a position, and one with a position and a label that needs escapes. -/
def plainEnd : Node := .made (.text "a") .null (.whole 10) (.text "#666") .null .null .null
def placedEnd : Node :=
  .made (.text "ü") (.text "\"\\\n\x7f😀") (.whole (-7)) (.text "#666") (.text "book.svg") (.real 1.5)
    (.real Binary64.infinity)

def twin : Edge := .made (.text "a") (.text "ü") .null (.whole 3) .arrow .null .null

/-- Two edges with the same ends, of which the second has to get another id. -/
def twins : List Addition := [.node plainEnd, .node placedEnd, .edge twin, .edge twin]

theorem twins_made : ∀ a ∈ twins, a.Made := by
  intro a ha
  simp only [twins, List.mem_cons, List.not_mem_nil, or_false] at ha
  rcases ha with rfl | rfl | rfl | rfl
  · exact .node _ _ _ _ _ _ _
  · exact .node _ _ _ _ _ _ _
  · exact .edge _ _ _ _ _ _ _
  · exact .edge _ _ _ _ _ _ _

/-- The graph of the twins after a drawing has bent them apart. -/
def bent : Graph :=
  { title := .text "Twins"
    slots := [⟨.text "a", plainEnd⟩, ⟨.text "ü", placedEnd⟩]
    edges := [{ twin with curvature := .real 0.5 },
      { twin with id := .text "a-ü#2", curvature := .real (-0.5) }] }

theorem bent_straight : bent.straight = addAll { title := .text "Twins" } twins := by rfl

theorem readable_three_halves : Json.Readable (.real 1.5) := by
  have hview : Binary64.view 1.5 = .finite false 6755399441055744 (-52) := by decide +kernel
  have htext : Json.writeNumber (.real 1.5) = "1.5".toList := by decide +kernel
  refine ⟨by rw [hview]; exact nofun, fun neg m e _ => ?_⟩
  rw [htext]
  rfl

theorem readable_infinity : Json.Readable (.real Binary64.infinity) := by
  have hview : Binary64.view Binary64.infinity = .infinite false := by decide +kernel
  refine ⟨by rw [hview]; exact nofun, fun neg m e h => ?_⟩
  rw [hview] at h
  cases h

theorem bent_plain : bent.Plain := by
  refine ⟨rfl, .text _, ?_, ?_, ?_⟩
  · intro n hn
    simp only [nodes, bent, List.map_cons, List.map_nil, List.mem_cons, List.not_mem_nil, or_false] at hn
    rcases hn with rfl | rfl
    · exact ⟨_, rfl⟩
    · exact ⟨_, rfl⟩
  · intro n hn v hv
    simp only [nodes, bent, List.map_cons, List.map_nil, List.mem_cons, List.not_mem_nil, or_false] at hn hv
    rcases hn with rfl | rfl
    · rcases hv with rfl | rfl | rfl | rfl | rfl | rfl
      · exact .text _
      · exact .number (Text.lt_limit (by decide))
      · exact .text _
      · exact .null
      · exact .null
      · exact .null
    · rcases hv with rfl | rfl | rfl | rfl | rfl | rfl
      · exact .text _
      · exact .number (Text.lt_limit (by decide))
      · exact .text _
      · exact .text _
      · exact .number readable_three_halves
      · exact .number readable_infinity
  · have hedge (id : String) (curvature : Value) :
        let e : Edge := { twin with id := .text id, curvature }
        ∀ v ∈ [e.id, e.source, e.target, e.label, e.size, e.color], v.Plain := by
      intro e v hv
      simp only [List.mem_cons, List.not_mem_nil, or_false] at hv
      rcases hv with rfl | rfl | rfl | rfl | rfl | rfl
      · exact .text _
      · exact .text _
      · exact .text _
      · exact .null
      · exact .number (Text.lt_limit (by decide))
      · exact .null
    intro e he
    simp only [bent, List.mem_cons, List.not_mem_nil, or_false] at he
    rcases he with rfl | rfl
    · exact hedge "a-ü" (.real 0.5)
    · exact hedge "a-ü#2" (.real (-0.5))

end NodeLink.Graph
