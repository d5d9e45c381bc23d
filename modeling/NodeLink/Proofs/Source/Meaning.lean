import NodeLink.Proofs.Graph.Building
import NodeLink.Proofs.Outcome
import NodeLink.Proofs.Source.Lines
import NodeLink.Source.Document

/-!
# What a diagram text means

The graph of a text follows from what its lines declare: the last title counts, every id that comes up has
one node in the place where it came up first with the record it was given last, and every edge that is
declared is there.
-/

namespace NodeLink.Source

open NodeLink.Graph (eraseDups_concat nodup_concat)

/-- What lines declare, in order. -/
def declarations : List (List Char) → Except Fault (List Declaration)
  | [] => .ok []
  | line :: rest => do
    let (found, _) ← readLine line
    return found.toList ++ (← declarations rest)

namespace Declaration

def title? : Declaration → Option String
  | .title given => given
  | _ => none

def edge? : Declaration → Option EdgeDecl
  | .edge d => some d
  | _ => none

def nodeOf? (id : String) : Declaration → Option NodeDecl
  | .node d => if d.id = id then some d else none
  | _ => none

def mentioned : Declaration → List String
  | .title _ => []
  | .node d => [d.id]
  | .edge d => [d.source, d.target]

end Declaration

/-- The title declared last. -/
def titleOf (D : List Declaration) : String := (D.filterMap Declaration.title?).getLastD defaultTitle

/-- The ids that come up, each once, in the order in which they come up first. -/
def idsOf (D : List Declaration) : List String := (D.flatMap Declaration.mentioned).eraseDups

/-- What a node of an id is declared as last. -/
def lastNode? (D : List Declaration) (id : String) : Option NodeDecl :=
  (D.filterMap (Declaration.nodeOf? id)).getLast?

/-- The record of an id: size, colour and icon as they are declared last, or the defaults. -/
def recordOf (D : List Declaration) (id : String) : Node :=
  { id := .text id
    label := .text id
    size := .whole ((lastNode? D id).elim defaultSize NodeDecl.size : Nat)
    color := .text ((lastNode? D id).elim defaultColor NodeDecl.color)
    icon := Outline.optional ((lastNode? D id).bind NodeDecl.icon)
    x := .null
    y := .null }

def edgesOf (D : List Declaration) : List EdgeDecl := D.filterMap Declaration.edge?

/-- An edge of a graph is the one that is declared. -/
structure Draws (d : EdgeDecl) (e : Edge) : Prop where
  source : e.source = .text d.source
  target : e.target = .text d.target
  label : e.label = Outline.optional d.label
  size : e.size = .whole d.weight
  kind : e.kind = d.kind
  color : e.color = .null

/-- A graph is what declarations add up to. -/
structure Means (D : List Declaration) (g : Graph) : Prop where
  title : g.title = .text (titleOf D)
  slots : g.slots = (idsOf D).map fun id => ⟨.text id, recordOf D id⟩
  edges : List.Forall₂ Draws (edgesOf D) g.edges

variable {D : List Declaration} {o : Outline} {g : Graph} {id : String}

theorem Means.declared (h : Means D g) : ∀ e ∈ g.edges, ∃ d, .edge d ∈ D ∧ Draws d e := by
  intro e he
  obtain ⟨d, hd, hdraws⟩ := exists_of_forall₂ h.edges he
  obtain ⟨decl, hdecl, hedge⟩ := List.mem_filterMap.mp hd
  cases decl with
  | title given => cases hedge
  | node n => cases hedge
  | edge d' =>
    cases hedge
    exact ⟨d, hdecl, hdraws⟩

/-! ### Ids and records -/

/-- An id comes last unless it is there already. -/
def withId (ids : List String) (id : String) : List String := if id ∈ ids then ids else ids ++ [id]

theorem nodup_withId {ids : List String} (h : ids.Nodup) (id : String) : (withId ids id).Nodup := by
  unfold withId
  split
  · exact h
  · rename_i hm
    exact nodup_concat h hm

theorem nodup_foldl_withId {ids : List String} (h : ids.Nodup) (more : List String) :
    (more.foldl withId ids).Nodup := by
  induction more generalizing ids with
  | nil => exact h
  | cons id more ih => exact ih (nodup_withId h id)

/-- Declarations bring their ids in one after the other. -/
theorem idsOf_concat (D : List Declaration) (d : Declaration) :
    idsOf (D ++ [d]) = d.mentioned.foldl withId (idsOf D) := by
  have one (ids : List String) (id : String) :
      (ids ++ [id]).eraseDups = withId ids.eraseDups id := by
    rw [eraseDups_concat, withId]
    simp
  have all (more ids : List String) : (ids ++ more).eraseDups = more.foldl withId ids.eraseDups := by
    induction more generalizing ids with
    | nil => simp
    | cons id more ih => rw [List.append_cons, ih, one, List.foldl_cons]
  rw [idsOf, List.flatMap_append, all, idsOf]
  simp

theorem nodup_idsOf (D : List Declaration) : (idsOf D).Nodup := by
  induction D using List.reverseRecOn with
  | nil => exact List.nodup_nil
  | append_singleton D d ih =>
    rw [idsOf_concat]
    exact nodup_foldl_withId ih d.mentioned

theorem lastNode?_node (D : List Declaration) (d : NodeDecl) :
    lastNode? (D ++ [.node d]) id = if id = d.id then some d else lastNode? D id := by
  by_cases h : d.id = id
  · simp [lastNode?, Declaration.nodeOf?, h]
  · simp [lastNode?, Declaration.nodeOf?, h, Ne.symm h]

theorem lastNode?_other (D : List Declaration) (d : Declaration) (hd : ∀ n, d ≠ .node n) :
    lastNode? (D ++ [d]) id = lastNode? D id := by
  cases d with
  | node n => exact absurd rfl (hd n)
  | title t => simp [lastNode?, Declaration.nodeOf?]
  | edge e => simp [lastNode?, Declaration.nodeOf?]

theorem lastNode?_mem {d : NodeDecl} (h : lastNode? D id = some d) : .node d ∈ D ∧ d.id = id := by
  obtain ⟨decl, hm, hd⟩ := List.mem_filterMap.mp (List.mem_of_getLast? h)
  cases decl with
  | title t => cases hd
  | edge e => cases hd
  | node n =>
    simp only [Declaration.nodeOf?, Option.ite_none_right_eq_some, Option.some.injEq] at hd
    obtain ⟨hid, rfl⟩ := hd
    exact ⟨hm, hid⟩

theorem mem_idsOf {d : Declaration} (hd : d ∈ D) (hid : id ∈ d.mentioned) : id ∈ idsOf D :=
  List.mem_eraseDups.mpr (List.mem_flatMap.mpr ⟨d, hd, hid⟩)

theorem recordOf_declared {d : NodeDecl} (h : lastNode? D id = some d) :
    recordOf D id = Outline.nodeOf d := by
  obtain ⟨-, rfl⟩ := lastNode?_mem h
  rw [recordOf, h]
  rfl

theorem recordOf_undeclared (h : lastNode? D id = none) : recordOf D id = .ofId (.text id) := by
  rw [recordOf, h]
  rfl

theorem recordOf_node (D : List Declaration) (d : NodeDecl) :
    recordOf (D ++ [.node d]) = Function.update (recordOf D) d.id (Outline.nodeOf d) := by
  funext id
  rw [Function.update_apply]
  split
  · rename_i h
    exact recordOf_declared (by rw [lastNode?_node, if_pos h])
  · rename_i h
    rw [recordOf, lastNode?_node, if_neg h, recordOf]

theorem recordOf_other (D : List Declaration) (d : Declaration) (hd : ∀ n, d ≠ .node n) :
    recordOf (D ++ [d]) = recordOf D := by
  funext id
  rw [recordOf, lastNode?_other D d hd, recordOf]

theorem recordOf_new (h : id ∉ idsOf D) : recordOf D id = .ofId (.text id) := by
  cases hlast : lastNode? D id with
  | none => exact recordOf_undeclared hlast
  | some d =>
    obtain ⟨hm, rfl⟩ := lastNode?_mem hlast
    exact absurd (mem_idsOf hm (List.mem_singleton.mpr rfl)) h

/-! ### Outlines -/

def slotsOf (record : String → Node) (ids : List String) : List Slot :=
  ids.map fun id => ⟨.text id, record id⟩

theorem keys_slotsOf (record : String → Node) (ids : List String) :
    (slotsOf record ids).map (·.id.key?) = ids.map fun id => some (Key.text id) := by
  simp [slotsOf, Function.comp_def, Json.key?]

theorem hasNode_slotsOf {record : String → Node} {ids : List String} (h : o.slots = slotsOf record ids) :
    o.hasNode id = decide (id ∈ ids) := by
  rw [Bool.eq_iff_iff]
  simp [Outline.hasNode, Graph.slotOf?, h, slotsOf, Json.key?]

/-- Putting a node in changes the record of its id and no other. -/
theorem putNode_slotsOf {record : String → Node} {ids : List String} {n : Node} (hid : n.id = .text id)
    (hd : ids.Nodup) :
    Graph.putNode (.text id) n (slotsOf record ids) =
      slotsOf (Function.update record id n) (withId ids id) := by
  induction ids with
  | nil => simp [slotsOf, Graph.putNode, withId, hid]
  | cons first ids ih =>
    obtain ⟨hf, hd⟩ := List.nodup_cons.mp hd
    have hcons (r : String → Node) (i : String) (is : List String) :
        slotsOf r (i :: is) = ⟨.text i, r i⟩ :: slotsOf r is := rfl
    by_cases h : first = id
    · subst h
      have hrest : slotsOf (Function.update record first n) ids = slotsOf record ids :=
        List.map_congr_left fun i hi => by
          have hne : i ≠ first := fun e => hf (e ▸ hi)
          rw [Function.update_of_ne hne]
      simp [hcons, Graph.putNode, withId, Json.key?, hrest]
    · have hw : withId (first :: ids) id = first :: withId ids id := by
        unfold withId
        by_cases hm : id ∈ ids <;> simp [hm, Ne.symm h]
      rw [hw, hcons, hcons, ← ih hd, Function.update_of_ne h]
      simp [Graph.putNode, Json.key?, h]

/-- An outline is what declarations add up to so far. -/
structure Holds (D : List Declaration) (o : Outline) : Prop where
  title : o.title = titleOf D
  slots : o.slots = slotsOf (recordOf D) (idsOf D)
  edges : o.edges = edgesOf D

theorem needNode_slots (id : String) {record : String → Node} {ids : List String}
    (h : o.slots = slotsOf record ids) (hd : ids.Nodup) (hr : id ∉ ids → record id = .ofId (.text id)) :
    (o.needNode id).slots = slotsOf record (withId ids id) := by
  unfold Outline.needNode
  rw [hasNode_slotsOf h]
  by_cases hm : id ∈ ids
  · simp [hm, withId, h]
  · simp only [hm, decide_false, Bool.false_eq_true, if_false, Outline.putNode]
    rw [h, putNode_slotsOf rfl hd, ← hr hm, Function.update_eq_self]

theorem holds_apply (h : Holds D o) (d : Declaration) : Holds (D ++ [d]) (o.apply d) := by
  have hd := nodup_idsOf D
  cases d with
  | title given =>
    have hr : recordOf (D ++ [.title given]) = recordOf D := recordOf_other D _ nofun
    have hi : idsOf (D ++ [.title given]) = idsOf D := idsOf_concat D _
    cases given with
    | none =>
      constructor
      · simp [Outline.apply, h.title, titleOf, Declaration.title?]
      · simp [Outline.apply, h.slots, hr, hi]
      · simp [Outline.apply, h.edges, edgesOf, Declaration.edge?]
    | some text =>
      constructor
      · simp [Outline.apply, titleOf, Declaration.title?]
      · simp [Outline.apply, h.slots, hr, hi]
      · simp [Outline.apply, h.edges, edgesOf, Declaration.edge?]
  | node n =>
    constructor
    · simp [Outline.apply, Outline.putNode, h.title, titleOf, Declaration.title?]
    · simp only [Outline.apply, Outline.putNode, h.slots]
      rw [putNode_slotsOf rfl hd, recordOf_node, idsOf_concat]
      rfl
    · simp [Outline.apply, Outline.putNode, h.edges, edgesOf, Declaration.edge?]
  | edge e =>
    have hr : recordOf (D ++ [.edge e]) = recordOf D := recordOf_other D _ nofun
    have hkeep (o : Outline) (id : String) :
        (o.needNode id).title = o.title ∧ (o.needNode id).edges = o.edges := by
      unfold Outline.needNode
      split <;> exact ⟨rfl, rfl⟩
    have hs := needNode_slots e.source h.slots hd recordOf_new
    -- The source may have brought the target in, so its place is looked for among the ids with the source.
    have ht := needNode_slots e.target hs (nodup_withId hd _) (by
      intro hm
      apply recordOf_new
      intro hin
      apply hm
      unfold withId
      split <;> simp [hin])
    constructor
    · simp [Outline.apply, hkeep, h.title, titleOf, Declaration.title?]
    · simp only [Outline.apply]
      rw [ht, hr, idsOf_concat]
      rfl
    · simp [Outline.apply, hkeep, h.edges, edgesOf, Declaration.edge?]

theorem holds_foldl (D : List Declaration) : Holds D (D.foldl Outline.apply {}) := by
  induction D using List.reverseRecOn with
  | nil => exact ⟨rfl, rfl, rfl⟩
  | append_singleton D d ih =>
    rw [List.foldl_concat]
    exact holds_apply ih d

theorem readStatements_eq (o : Outline) (lines : List (List Char)) :
    readStatements o lines = (declarations lines).map fun D => D.foldl Outline.apply o := by
  induction lines generalizing o with
  | nil => rfl
  | cons line rest ih =>
    simp only [readStatements, declarations, bind, Except.bind, pure, Except.pure]
    cases readLine line with
    | error f => rfl
    | ok found =>
      obtain ⟨decl, notices⟩ := found
      cases decl with
      | none =>
        simp only [ih]
        cases declarations rest <;> rfl
      | some d =>
        simp only [ih]
        cases declarations rest <;> rfl

/-- Every declaration comes from a line. -/
theorem declarations_lines {lines : List (List Char)} (h : declarations lines = .ok D) :
    ∀ d ∈ D, ∃ line ∈ lines, ∃ notices, readLine line = .ok (some d, notices) := by
  induction lines generalizing D with
  | nil =>
    cases h
    exact nofun
  | cons line rest ih =>
    obtain ⟨⟨decl, notices⟩, hl, h⟩ := bind_eq_ok h
    obtain ⟨more, hr, h⟩ := bind_eq_ok h
    cases h
    intro d hd
    rcases List.mem_append.mp hd with hd | hd
    · rw [Option.mem_toList.mp hd] at hl
      exact ⟨line, List.mem_cons_self, notices, hl⟩
    · obtain ⟨later, hlater, hread⟩ := ih hr d hd
      exact ⟨later, List.mem_cons_of_mem line hlater, hread⟩

theorem declarations_proper {lines : List (List Char)} (h : declarations lines = .ok D) :
    ∀ d ∈ D, d.Proper := by
  intro d hd
  obtain ⟨line, -, notices, hread⟩ := declarations_lines h d hd
  exact readLine_proper hread

/-! ### Graphs of outlines -/

theorem foldlM_addNode {record : String → Node} (hid : ∀ id, (record id).id = .text id) (title : Json)
    (ids : List String) (hd : ids.Nodup) :
    ((slotsOf record ids).map (·.node)).foldlM Graph.addNode { title := title : Graph } =
      .ok { title := title, slots := slotsOf record ids } := by
  induction ids using List.reverseRecOn with
  | nil => rfl
  | append_singleton ids id ih =>
    obtain ⟨hd, -, hne⟩ := List.nodup_append.mp hd
    have hm : id ∉ ids := fun hm => hne id hm id (List.mem_singleton.mpr rfl) rfl
    have hk : (record id).id.key? = some (.text id) := by rw [hid]; rfl
    have hput :
        Graph.putNode (.text id) (record id) (slotsOf record ids) = slotsOf record (ids ++ [id]) := by
      rw [putNode_slotsOf (hid id) hd, Function.update_eq_self, withId, if_neg hm]
    have hlast : slotsOf record (ids ++ [id]) = slotsOf record ids ++ [⟨.text id, record id⟩] := by
      simp [slotsOf]
    rw [hlast, List.map_append, List.foldlM_append, ih hd]
    simp only [bind, Except.bind, List.map_cons, List.map_nil, List.foldlM_cons, List.foldlM_nil,
      Graph.addNode_key hk, hput, pure, Except.pure, hlast]

/-- The edge of a declaration is added if both its ends are there, and it gets there as it is declared. -/
theorem joined_of_has {d : EdgeDecl} (hs : g.Has (.text d.source)) (ht : g.Has (.text d.target)) :
    ∃ e, Draws d e ∧ Outline.joined g d = .ok { g with edges := g.edges ++ [e] } := by
  have hsource : g.Has (Outline.edgeOf d).source := hs
  have htarget : g.Has (Outline.edgeOf d).target := ht
  have hk : (Outline.edgeOf d).id.key? ≠ none := by
    simp only [Outline.edgeOf, Edge.made, Json.orElse, Json.isGiven]
    exact nofun
  cases hadd : g.addEdge (Outline.edgeOf d) with
  | error f => exact absurd ⟨hsource, htarget⟩ ((Graph.addEdge_fails_iff hk).mp ⟨f, hadd⟩)
  | ok r =>
    obtain ⟨g', e⟩ := r
    obtain ⟨-, -, hgains⟩ := Graph.gains_of_addEdge hadd
    refine ⟨e, ?_, ?_⟩
    · rw [hgains.fields]
      exact ⟨rfl, rfl, rfl, rfl, rfl, rfl⟩
    · simp only [Outline.joined, Graph.hasNode_of_has hs, Graph.hasNode_of_has ht, hadd, bind, Except.bind,
        pure, Except.pure]
      simp [hgains.graph]

theorem foldlM_joined (edges : List EdgeDecl) (g : Graph)
    (h : ∀ d ∈ edges, g.Has (.text d.source) ∧ g.Has (.text d.target)) :
    ∃ more, List.Forall₂ Draws edges more ∧
      edges.foldlM Outline.joined g = .ok { g with edges := g.edges ++ more } := by
  induction edges generalizing g with
  | nil => exact ⟨[], .nil, by simp [pure, Except.pure]⟩
  | cons d edges ih =>
    obtain ⟨hs, ht⟩ := h d List.mem_cons_self
    obtain ⟨e, hde, hj⟩ := joined_of_has hs ht
    obtain ⟨more, hmore, hf⟩ := ih { g with edges := g.edges ++ [e] } fun d hd =>
      h d (List.mem_cons_of_mem _ hd)
    refine ⟨e :: more, .cons hde hmore, ?_⟩
    rw [List.foldlM_cons, hj]
    simpa [bind, Except.bind] using hf

/-- The graph of an outline is what the outline's declarations mean, with no edge left out. -/
theorem build_means (h : Holds D o) : ∃ g, o.build = .ok g ∧ Means D g := by
  let g₀ : Graph := { title := .text o.title, slots := slotsOf (recordOf D) (idsOf D) }
  have hnodes :
      (o.slots.map (·.node)).foldlM Graph.addNode { title := .text o.title : Graph } = .ok g₀ := by
    rw [h.slots]
    exact foldlM_addNode (fun _ => rfl) _ _ (nodup_idsOf D)
  have hhas {id : String} (hid : id ∈ idsOf D) : g₀.Has (.text id) := by
    refine ⟨.text id, rfl, ?_⟩
    rw [Graph.nodeKeys, keys_slotsOf]
    exact List.mem_map.mpr ⟨id, hid, rfl⟩
  have hends : ∀ d ∈ o.edges, g₀.Has (.text d.source) ∧ g₀.Has (.text d.target) := by
    intro d hd
    rw [h.edges] at hd
    obtain ⟨decl, hm, he⟩ := List.mem_filterMap.mp hd
    cases decl with
    | title t => cases he
    | node n => cases he
    | edge e =>
      cases he
      exact ⟨hhas (mem_idsOf hm (by simp [Declaration.mentioned])),
        hhas (mem_idsOf hm (by simp [Declaration.mentioned]))⟩
  obtain ⟨more, hmore, hedges⟩ := foldlM_joined o.edges g₀ hends
  refine ⟨{ g₀ with edges := g₀.edges ++ more }, ?_, ⟨?_, rfl, ?_⟩⟩
  · rw [Outline.build, hnodes]
    exact hedges
  · rw [← h.title]
  · rw [← h.edges]
    exact hmore

/-- The graph of a text is what its statements declare. -/
theorem means_of_parse {text : List Char} (h : parse text = .ok g) :
    ∃ D, declarations (statements text) = .ok D ∧ Means D g := by
  rw [parse, readStatements_eq] at h
  cases hread : declarations (statements text) with
  | error f =>
    rw [hread] at h
    cases h
  | ok D =>
    rw [hread] at h
    obtain ⟨g', hbuild, hmeans⟩ := build_means (holds_foldl D)
    obtain rfl : g' = g := Except.ok.inj (hbuild.symm.trans h)
    exact ⟨D, rfl, hmeans⟩

/-- A text has a graph if all its lines can be read, and then it is the graph that their declarations mean.
A title that is declared at all is not empty. -/
theorem parse_means_declarations (text : List Char) :
    match declarations (statements text) with
    | .ok D => (∀ given, .title given ∈ D → given ≠ some "") ∧ ∃ g, parse text = .ok g ∧ Means D g
    | .error f => parse text = .error f := by
  have hread := readStatements_eq {} (statements text)
  cases h : declarations (statements text) with
  | error f =>
    rw [h] at hread
    simp only [parse, hread, bind, Except.bind, Except.map]
  | ok D =>
    rw [h] at hread
    obtain ⟨g, hg, hm⟩ := build_means (holds_foldl D)
    refine ⟨fun given hd => declarations_proper h _ hd, g, ?_, hm⟩
    simp only [parse, hread, bind, Except.bind, Except.map, hg]

end NodeLink.Source
