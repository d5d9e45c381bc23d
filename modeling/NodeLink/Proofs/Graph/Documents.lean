import NodeLink.Proofs.Graph.Building
import NodeLink.Proofs.Json.Values
import NodeLink.Proofs.Outcome
import NodeLink.Graph.Document

/-!
# Documents of built graphs

A graph that was built has an id and a label for every node and an id of its own for every edge. So its
document leaves nothing to be filled in, and no edge is given another id when it is read.
-/

namespace NodeLink

/-- The edge as it was before a drawing bent it. -/
def Edge.straight (e : Edge) : Edge := { e with curvature := .real 0.0 }

def Graph.straight (g : Graph) : Graph := { g with edges := g.edges.map Edge.straight }

namespace Json

/-- A value without inner values that is found again in its text. -/
inductive Plain : Json → Prop where
  | null : Plain .null
  | bool (b : Bool) : Plain (.bool b)
  | number {n : Number} (readable : Readable n) : Plain (.number n)
  | text (s : String) : Plain (.text s)

theorem Plain.faithful {d : Nat} {v : Json} (h : v.Plain) : Faithful d v := by
  cases h with
  | null => exact .null
  | bool b => exact .bool b
  | number readable => exact .number readable
  | text s => exact .text s

theorem Plain.key_ne_none {v : Json} (h : v.Plain) : v.key? ≠ none := by
  cases h <;> exact nofun

theorem eq_text_of_key {v : Json} {s : String} (h : v.key? = some (.text s)) : v = .text s := by
  cases v with
  | null => cases h
  | bool b => cases h
  | number n =>
    cases n with
    | whole m => cases h
    | real x =>
      simp only [key?, numberKey, Option.some.injEq] at h
      split at h <;> cases h
  | text t =>
    cases h
    rfl
  | list items => cases h
  | record fields => cases h

end Json

namespace Graph

variable {g g' placed : Graph} {a : Addition} {n : Node} {e : Edge} {v : Json}

/-- An addition of a node or an edge as it is made from its fields. -/
inductive Addition.Made : Addition → Prop where
  | node (id label size color icon x y : Json) : Made (.node (.made id label size color icon x y))
  | edge (source target label size : Json) (kind : EdgeKind) (id color : Json) :
      Made (.edge (.made source target label size kind id color))

/-- The graphs that additions lead to, one successful addition after the other. -/
inductive Built : Graph → Prop where
  | empty (title : Json) : Built { title }
  | add {g g' : Graph} {a : Addition} (built : Built g) (made : a.Made) (added : g.add a = .ok g') :
      Built g'

theorem built_addAll {row : List Addition} (h : g.Built) (made : ∀ a ∈ row, a.Made) :
    (g.addAll row).Built := by
  induction row generalizing g with
  | nil => exact h
  | cons a row ih =>
    have hattempt : (g.attempt a).Built := by
      unfold attempt
      split
      · rename_i g' hadd
        exact .add h (made a (by simp)) hadd
      · exact h
    exact ih hattempt fun b hb => made b (List.mem_cons_of_mem a hb)

/-- What holds of the fields of a built graph. -/
structure Settled (g : Graph) : Prop where
  sound : g.Sound
  labelled : ∀ slot ∈ g.slots, slot.node.label = .null → slot.node.id = .null
  told : ∀ e ∈ g.edges, e.id.isGiven = true
  unbent : ∀ e ∈ g.edges, e.straight = e

theorem attempt_of_add (h : g.add a = .ok g') : g.attempt a = g' := by
  rw [attempt, h]

theorem made_label (id label size color icon x y : Json) :
    (Node.made id label size color icon x y).label = .null → id = .null := by
  intro h
  by_cases hl : label.isNull = true
  · simpa [Node.made, hl] using h
  · have hnull : label = .null := by simpa [Node.made, hl] using h
    rw [hnull] at hl
    exact absurd rfl hl

theorem derivedId_ne_empty (source target : Json) : Edge.derivedId source target ≠ "" := by
  intro h
  have := congrArg String.toList h
  simp [Edge.derivedId] at this

theorem made_id_isGiven (source target label size : Json) (kind : EdgeKind) (id color : Json) :
    (Edge.made source target label size kind id color).id.isGiven = true := by
  unfold Edge.made Json.orElse
  dsimp only
  split
  · assumption
  · simp [Json.isGiven, derivedId_ne_empty]

theorem numberedId_isGiven (e : Edge) (n : Nat) : (Json.text (e.numberedId n)).isGiven = true := by
  have hne : e.numberedId n ≠ "" := by
    intro h
    have := congrArg String.toList h
    simp [Edge.numberedId] at this
  simp [Json.isGiven, hne]

theorem addEdge_of_add (h : g.add (.edge e) = .ok g') : ∃ e', g.addEdge e = .ok (g', e') := by
  cases hadd : g.addEdge e with
  | error f => simp [add, hadd, bind, Except.bind] at h
  | ok r =>
    simp only [add, hadd, bind, Except.bind, pure, Except.pure, Except.ok.injEq] at h
    exact ⟨r.2, by rw [← h]⟩

theorem settled_addNode (h : g.Settled) (hsound : g'.Sound) {id label size color icon x y : Json}
    (added : g.addNode (.made id label size color icon x y) = .ok g') : g'.Settled := by
  cases hk : id.key? with
  | none =>
    obtain ⟨f, hf⟩ := addNode_no_key (g := g) (n := .made id label size color icon x y) hk
    rw [hf] at added
    cases added
  | some key =>
    rw [addNode_key hk] at added
    cases added
    refine ⟨hsound, ?_, h.told, h.unbent⟩
    intro slot hm
    rcases mem_putNode hk hm with hm | ⟨hnode, -⟩
    · exact h.labelled slot hm
    · rw [hnode]
      exact made_label id label size color icon x y

theorem settled_addEdge (h : g.Settled) (hsound : g'.Sound) {source target label size id color : Json} {kind : EdgeKind}
    {e' : Edge} (added : g.addEdge (.made source target label size kind id color) = .ok (g', e')) : g'.Settled := by
  obtain ⟨-, -, hgains⟩ := gains_of_addEdge added
  have hgraph := hgains.graph
  have htold : e'.id.isGiven = true := by
    by_cases ht : g.Taken (Edge.made source target label size kind id color).id
    · obtain ⟨n, -, -, hid⟩ := hgains.numbered ht
      rw [hid]
      exact numberedId_isGiven _ n
    · rw [hgains.kept ht]
      exact made_id_isGiven source target label size kind id color
  have hunbent : e'.straight = e' := by
    rw [hgains.fields]
    rfl
  refine ⟨hsound, ?_, ?_, ?_⟩
  · rw [hgraph]
    exact h.labelled
  · rw [hgraph]
    exact List.forall_mem_append.mpr ⟨h.told, List.forall_mem_singleton.mpr htold⟩
  · rw [hgraph]
    exact List.forall_mem_append.mpr ⟨h.unbent, List.forall_mem_singleton.mpr hunbent⟩

theorem settled_add (h : g.Settled) (made : a.Made) (added : g.add a = .ok g') : g'.Settled := by
  have hsound : g'.Sound := by
    rw [← attempt_of_add added]
    exact sound_attempt h.sound a
  cases made with
  | node id label size color icon x y => exact settled_addNode h hsound added
  | edge source target label size kind id color =>
    obtain ⟨e', hadd⟩ := addEdge_of_add added
    exact settled_addEdge h hsound hadd

theorem settled_of_built (h : g.Built) : g.Settled := by
  induction h with
  | empty title => exact ⟨sound_empty title, by simp, by simp, by simp⟩
  | add built made added ih => exact settled_add ih made added

theorem Settled.straight (h : g.Settled) : g.straight = g := by
  have hedges : g.edges.map Edge.straight = g.edges := by
    rw [List.map_congr_left h.unbent, List.map_id']
  rw [Graph.straight, hedges]

/-! ### Documents -/

theorem node_ofJson_toJson (h : n.label = .null → n.id = .null) : Node.ofJson n.toJson = .ok n := by
  have hlabel : (if n.label.isNull then n.id else n.label) = n.label := by
    cases hl : n.label with
    | null => exact h hl
    | bool b => rfl
    | number x => rfl
    | text s => rfl
    | list items => rfl
    | record fields => rfl
  simp [Node.ofJson, Node.toJson, Json.needField, Json.fieldOr, Json.field?, Node.made, hlabel, bind,
    Except.bind, pure, Except.pure]

theorem ofJson?_name (kind : EdgeKind) : EdgeKind.ofJson? (.text kind.name) = .ok kind := by
  cases kind <;> rfl

theorem edge_ofJson_toJson (h : e.id.isGiven = true) : Edge.ofJson e.toJson = .ok e.straight := by
  simp [Edge.ofJson, Edge.ofJsonWith, Edge.toJson, Json.needField, Json.fieldOr, Json.field?, Edge.made,
    Edge.straight, Json.orElse, h, ofJson?_name, bind, Except.bind, pure, Except.pure]

theorem putNode_new {key : Key} {slots : List Slot} (h : some key ∉ slots.map (·.id.key?)) :
    putNode key n slots = slots ++ [⟨n.id, n⟩] := by
  induction slots with
  | nil => rfl
  | cons slot slots ih =>
    simp only [List.map_cons, List.mem_cons, not_or] at h
    rw [putNode, if_neg (Ne.symm h.1), ih h.2]
    rfl

/-- The nodes of a graph with an id each, added one behind the other. -/
theorem foldlM_addNode_slots (title : Json) (slots : List Slot)
    (hid : ∀ slot ∈ slots, slot.id = slot.node.id ∧ slot.id.key? ≠ none)
    (hlabel : ∀ slot ∈ slots, slot.node.label = .null → slot.node.id = .null)
    (hd : (slots.map (·.id.key?)).Nodup) :
    (slots.map (·.node.toJson)).foldlM (fun g item => do g.addNode (← Node.ofJson item))
      { title := title : Graph } = .ok { title := title, slots := slots } := by
  induction slots using List.reverseRecOn with
  | nil => rfl
  | append_singleton slots slot ih =>
    rw [List.map_append, List.nodup_append] at hd
    obtain ⟨hid', hk⟩ := hid slot (by simp)
    obtain ⟨key, hk⟩ := Option.ne_none_iff_exists'.mp hk
    have hnew : some key ∉ slots.map (·.id.key?) := by
      intro hm
      exact hd.2.2 _ hm (some key) (by simp [hk]) rfl
    have hslot : (⟨slot.node.id, slot.node⟩ : Slot) = slot := by rw [← hid']
    rw [List.map_append, List.foldlM_append, ih (fun s hs => hid s (by simp [hs]))
      (fun s hs => hlabel s (by simp [hs])) hd.1]
    simp only [List.map_cons, List.map_nil, List.foldlM_cons, List.foldlM_nil, bind, Except.bind,
      node_ofJson_toJson (hlabel slot (by simp)), addNode_key (hid' ▸ hk), putNode_new hnew, hslot, pure,
      Except.pure]

theorem addEdge_free {key : Key} (hs : g.Has e.source) (ht : g.Has e.target) (hk : e.id.key? = some key)
    (hfree : some key ∉ g.edgeKeys) : g.addEdge e = .ok ({ g with edges := g.edges ++ [e] }, e) := by
  have hno : g.hasEdgeKey key = false := by
    rw [Bool.eq_false_iff]
    exact fun hm => hfree (hasEdgeKey_iff.mp hm)
  rw [addEdge_of_has hs ht, named_key hk, hno]
  rfl

/-- Edges with an id each, added one behind the other: none gets another id. -/
theorem foldlM_addEdge_edges (edges : List Edge) (placed : Graph)
    (hends : ∀ e ∈ edges, placed.Has e.source ∧ placed.Has e.target)
    (htold : ∀ e ∈ edges, e.id.isGiven = true ∧ e.id.key? ≠ none) (hflat : ∀ e ∈ edges, e.straight = e)
    (hd : (placed.edgeKeys ++ edges.map (·.id.key?)).Nodup) :
    (edges.map Edge.toJson).foldlM (fun g item => do return (← g.addEdge (← Edge.ofJson item)).1) placed =
      .ok { placed with edges := placed.edges ++ edges } := by
  induction edges generalizing placed with
  | nil => simp [pure, Except.pure]
  | cons e edges ih =>
    obtain ⟨hs, ht⟩ := hends e (by simp)
    obtain ⟨hgiven, hk⟩ := htold e (by simp)
    obtain ⟨key, hk⟩ := Option.ne_none_iff_exists'.mp hk
    have hfree : some key ∉ placed.edgeKeys := by
      intro hm
      rw [List.nodup_append] at hd
      exact hd.2.2 _ hm (some key) (by simp [hk]) rfl
    -- The other edges are added to a graph that has this one, and their ids are still free there.
    have hrest := ih { placed with edges := placed.edges ++ [e] }
      (fun d hm => hends d (List.mem_cons_of_mem e hm)) (fun d hm => htold d (List.mem_cons_of_mem e hm))
      (fun d hm => hflat d (List.mem_cons_of_mem e hm)) (by simpa [edgeKeys] using hd)
    rw [List.map_cons, List.foldlM_cons, edge_ofJson_toJson hgiven, hflat e (by simp)]
    simp only [bind, Except.bind, pure, Except.pure, addEdge_free hs ht hk hfree] at hrest ⊢
    rw [hrest, List.append_assoc]
    rfl

theorem ofJson_toJson (h : g.Settled) (ht : g.title.isGiven = true)
    (hid : ∀ slot ∈ g.slots, slot.id = slot.node.id ∧ slot.id.key? ≠ none)
    (hk : ∀ e ∈ g.edges, e.id.key? ≠ none) : Graph.ofJson g.toJson = .ok g := by
  have hnodes := foldlM_addNode_slots g.title g.slots hid h.labelled h.sound.nodes_apart
  have hedges := foldlM_addEdge_edges g.edges { title := g.title, slots := g.slots } h.sound.anchored
    (fun e he => ⟨h.told e he, hk e he⟩) h.unbent h.sound.edges_apart
  have hslots : (g.nodes.map Node.toJson) = g.slots.map (·.node.toJson) := by
    rw [nodes, List.map_map]
    rfl
  simp only [bind, Except.bind, pure, Except.pure] at hnodes hedges
  simp [Graph.ofJson, Graph.toJson, Json.fieldOr, Json.field?, Json.items?, Json.orElse, ht, hslots, hnodes,
    hedges, bind, Except.bind, pure, Except.pure]

/-! ### Texts of documents -/

/-- The fields of a graph hold plain values: ids of nodes are texts, and the title counts as given. -/
structure Plain (g : Graph) : Prop where
  titled : g.title.isGiven = true
  title : g.title.Plain
  ids : ∀ n ∈ g.nodes, ∃ id, n.id = .text id
  nodes : ∀ n ∈ g.nodes, ∀ v ∈ [n.label, n.size, n.color, n.icon, n.x, n.y], v.Plain
  edges : ∀ e ∈ g.edges, ∀ v ∈ [e.id, e.source, e.target, e.label, e.size, e.color], v.Plain

theorem Plain.node_faithful {d : Nat} (h : g.Plain) (hn : n ∈ g.nodes) :
    Json.Faithful (d + 1) n.toJson := by
  obtain ⟨id, hid⟩ := h.ids n hn
  refine .record (by simp) ?_
  intro field hf
  simp only [List.mem_cons, List.not_mem_nil, or_false] at hf
  have hplain := h.nodes n hn
  rcases hf with rfl | rfl | rfl | rfl | rfl | rfl | rfl
  · rw [hid]
    exact .text id
  all_goals exact (hplain _ (by simp)).faithful

theorem Plain.edge_faithful {d : Nat} (h : g.Plain) (he : e ∈ g.edges) :
    Json.Faithful (d + 1) e.toJson := by
  refine .record (by simp) ?_
  intro field hf
  simp only [List.mem_cons, List.not_mem_nil, or_false] at hf
  have hplain := h.edges e he
  rcases hf with rfl | rfl | rfl | rfl | rfl | rfl | rfl
  case inr.inr.inr.inr.inr.inl => exact .text e.kind.name
  all_goals exact (hplain _ (by simp)).faithful

theorem Plain.faithful (h : g.Plain) : Json.Faithful Json.depthLimit g.toJson := by
  have hnodes : Json.Faithful 989 (.list (g.nodes.map Node.toJson)) := by
    refine .list ?_
    intro x hx
    obtain ⟨n, hn, rfl⟩ := List.mem_map.mp hx
    exact h.node_faithful hn
  have hedges : Json.Faithful 989 (.list (g.edges.map Edge.toJson)) := by
    refine .list ?_
    intro x hx
    obtain ⟨e, he, rfl⟩ := List.mem_map.mp hx
    exact h.edge_faithful he
  refine .record (by simp) ?_
  intro field hf
  simp only [List.mem_cons, List.not_mem_nil, or_false] at hf
  rcases hf with rfl | rfl | rfl
  · exact h.title.faithful
  · exact hnodes
  · exact hedges

theorem Plain.straight (h : g.Plain) : g.straight.Plain := by
  refine ⟨h.titled, h.title, h.ids, h.nodes, ?_⟩
  intro e he
  obtain ⟨bent, hbent, rfl⟩ := List.mem_map.mp he
  exact h.edges bent hbent

theorem toJson_straight (g : Graph) : g.straight.toJson = g.toJson := by
  simp only [toJson, straight, nodes, List.map_map]
  rfl

/-- A built graph with plain fields is what its text is read as, however the text is set out. -/
theorem read_print {layout : Json.Layout} (hl : layout.Blank) (hb : g.Built) (hp : g.Plain) :
    Graph.read (g.print layout).toList = .ok g := by
  have hsettled := settled_of_built hb
  have hid : ∀ slot ∈ g.slots, slot.id = slot.node.id ∧ slot.id.key? ≠ none := by
    intro slot hm
    obtain ⟨id, hid⟩ := hp.ids slot.node (List.mem_map_of_mem hm)
    have hkey := hsettled.sound.named slot hm
    rw [hid] at hkey ⊢
    have heq := Json.eq_text_of_key hkey
    rw [heq]
    exact ⟨rfl, nofun⟩
  have hk : ∀ e ∈ g.edges, e.id.key? ≠ none := fun e he => (hp.edges e he e.id (by simp)).key_ne_none
  have htext : (g.print layout).toList = Json.write layout g.toJson := by
    simp [print, Json.print]
  rw [Graph.read, htext, Json.readAll_write hl hp.faithful]
  exact ofJson_toJson hsettled hp.titled hid hk

/-! ### Graphs that are read -/

theorem made_of_ofJson {value : Json} (h : Node.ofJson value = .ok n) : (Addition.node n).Made := by
  unfold Node.ofJson at h
  obtain ⟨id, -, h⟩ := bind_eq_ok h
  obtain ⟨label, -, h⟩ := bind_eq_ok h
  obtain ⟨size, -, h⟩ := bind_eq_ok h
  obtain ⟨color, -, h⟩ := bind_eq_ok h
  obtain ⟨icon, -, h⟩ := bind_eq_ok h
  obtain ⟨x, -, h⟩ := bind_eq_ok h
  obtain ⟨y, -, h⟩ := bind_eq_ok h
  cases h
  exact .node id label size color icon x y

theorem edge_made_of_ofJson {value : Json} (h : Edge.ofJson value = .ok e) : (Addition.edge e).Made := by
  unfold Edge.ofJson Edge.ofJsonWith at h
  obtain ⟨source, -, h⟩ := bind_eq_ok h
  obtain ⟨target, -, h⟩ := bind_eq_ok h
  obtain ⟨label, -, h⟩ := bind_eq_ok h
  obtain ⟨size, -, h⟩ := bind_eq_ok h
  obtain ⟨name, -, h⟩ := bind_eq_ok h
  obtain ⟨kind, -, h⟩ := bind_eq_ok h
  obtain ⟨id, -, h⟩ := bind_eq_ok h
  obtain ⟨color, -, h⟩ := bind_eq_ok h
  cases h
  exact .edge source target label size kind id color

/-- Reading a document adds one node or edge after the other. -/
theorem built_of_ofJson {value : Json} (h : Graph.ofJson value = .ok g) : g.Built := by
  unfold Graph.ofJson at h
  obtain ⟨title, -, h⟩ := bind_eq_ok h
  obtain ⟨field, -, h⟩ := bind_eq_ok h
  obtain ⟨nodes, -, h⟩ := bind_eq_ok h
  obtain ⟨placed, hplaced, h⟩ := bind_eq_ok h
  obtain ⟨field, -, h⟩ := bind_eq_ok h
  obtain ⟨edges, -, h⟩ := bind_eq_ok h
  have hbuilt : placed.Built := by
    refine foldlM_keeps ?_ (.empty _) hplaced
    intro item _ s s' hs hstep
    obtain ⟨n, hn, hadd⟩ := bind_eq_ok hstep
    exact .add hs (made_of_ofJson hn) hadd
  refine foldlM_keeps ?_ hbuilt h
  intro item _ s s' hs hstep
  obtain ⟨e, he, hadd⟩ := bind_eq_ok hstep
  exact .add hs (edge_made_of_ofJson he) hadd

theorem built_of_read {text : List Char} (h : Graph.read text = .ok g) : g.Built := by
  unfold Graph.read at h
  split at h
  · cases h
  · exact built_of_ofJson h

end Graph
end NodeLink
