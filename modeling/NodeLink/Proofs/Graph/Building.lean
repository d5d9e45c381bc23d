import NodeLink.Graph.Basic
import NodeLink.Proofs.Text.Digits
import Mathlib.Data.List.Perm.Subperm
import Mathlib.Data.List.Nodup
import Mathlib.Data.List.Range

/-!
# Graphs that are built

What holds of a graph after any row of additions, whether or not they succeed: ids name one node and one
edge each, nodes stand in the order in which their ids came up, edges run between nodes of the graph, and
an edge whose id is taken gets the first free numbered one. Ids are told apart by their keys.
-/

namespace NodeLink.Graph

def nodeKeys (g : Graph) : List (Option Key) := g.slots.map (·.id.key?)

def edgeKeys (g : Graph) : List (Option Key) := g.edges.map (·.id.key?)

/-- A value names a node of the graph. -/
def Has (g : Graph) (id : Json) : Prop := ∃ key, id.key? = some key ∧ some key ∈ g.nodeKeys

/-- A value is the id of an edge of the graph. -/
def Taken (g : Graph) (id : Json) : Prop := id.key? ∈ g.edgeKeys

theorem eraseDups_concat {α : Type} [DecidableEq α] (as : List α) (a : α) :
    (as ++ [a]).eraseDups = if a ∈ as then as.eraseDups else as.eraseDups ++ [a] := by
  rw [List.eraseDups_append]
  by_cases h : a ∈ as <;> simp [List.removeAll, List.eraseDups_cons, h]

theorem nodup_concat {α : Type} {as : List α} {a : α} (h : as.Nodup) (ha : a ∉ as) :
    (as ++ [a]).Nodup := by
  rw [← List.concat_eq_append]
  exact h.concat ha

/-! ### Nodes -/

variable {g g' : Graph} {e e' : Edge} {n : Node} {key : Key}

theorem keys_putNode (hk : n.id.key? = some key) (slots : List Slot) :
    (putNode key n slots).map (·.id.key?) =
      if some key ∈ slots.map (·.id.key?) then slots.map (·.id.key?)
      else slots.map (·.id.key?) ++ [some key] := by
  induction slots with
  | nil => simp [putNode, hk]
  | cons slot slots ih =>
    by_cases h : slot.id.key? = some key
    · simp [putNode, h]
    · simp only [putNode, h, if_false, List.map_cons, ih, List.mem_cons, Ne.symm h, false_or]
      split <;> simp

theorem mem_putNode (hk : n.id.key? = some key) {slots : List Slot} {slot : Slot}
    (h : slot ∈ putNode key n slots) : slot ∈ slots ∨ (slot.node = n ∧ slot.id.key? = some key) := by
  induction slots with
  | nil =>
    simp only [putNode, List.mem_singleton] at h
    subst h
    exact Or.inr ⟨rfl, hk⟩
  | cons first slots ih =>
    by_cases hf : first.id.key? = some key
    · simp only [putNode, hf, if_true, List.mem_cons] at h
      rcases h with rfl | h
      · exact Or.inr ⟨rfl, hf⟩
      · exact Or.inl (List.mem_cons_of_mem _ h)
    · simp only [putNode, hf, if_false, List.mem_cons] at h
      rcases h with rfl | h
      · exact Or.inl List.mem_cons_self
      · exact (ih h).imp (List.mem_cons_of_mem _) id

theorem keyOf_eq_ok {id : Json} : keyOf id = .ok key ↔ id.key? = some key := by
  unfold keyOf
  cases id.key? with
  | none => exact ⟨nofun, nofun⟩
  | some found => rw [Except.ok.injEq, Option.some.injEq]

theorem addNode_key (hk : n.id.key? = some key) :
    g.addNode n = .ok { g with slots := putNode key n g.slots } := by
  simp [addNode, keyOf, hk, bind, Except.bind, pure, Except.pure]

theorem addNode_no_key (hk : n.id.key? = none) : ∃ f, g.addNode n = .error f :=
  ⟨_, by simp only [addNode, keyOf, hk, bind, Except.bind]; rfl⟩

theorem hasNode_key {id : Json} (hk : id.key? = some key) :
    g.hasNode id = .ok (decide (some key ∈ g.nodeKeys)) := by
  have hf : (slotOf? g.slots key).isSome = decide (some key ∈ g.nodeKeys) := by
    rw [Bool.eq_iff_iff]
    simp [slotOf?, nodeKeys]
  simp [hasNode, keyOf, hk, find?, hf, bind, Except.bind, pure, Except.pure]

theorem hasNode_no_key {id : Json} (hk : id.key? = none) : ∃ f, g.hasNode id = .error f :=
  ⟨_, by simp only [hasNode, keyOf, hk, bind, Except.bind]; rfl⟩

theorem hasNode_of_has {id : Json} (h : g.Has id) : g.hasNode id = .ok true := by
  obtain ⟨key, hk, hm⟩ := h
  rw [hasNode_key hk, decide_eq_true hm]

theorem hasNode_of_not_has {id : Json} (h : ¬ g.Has id) :
    g.hasNode id = .ok false ∨ ∃ f, g.hasNode id = .error f := by
  cases hk : id.key? with
  | none => exact Or.inr (hasNode_no_key hk)
  | some key =>
    have hm : some key ∉ g.nodeKeys := fun hm => h ⟨key, hk, hm⟩
    exact Or.inl (by rw [hasNode_key hk, decide_eq_false hm])

/-! ### Numbered ids -/

theorem hasEdgeKey_iff : g.hasEdgeKey key = true ↔ some key ∈ g.edgeKeys := by
  simp [hasEdgeKey, edgeKeys]

theorem numberedId_injective (e : Edge) : Function.Injective e.numberedId := by
  intro m n h
  have htext := congrArg String.toList h
  simp only [Edge.numberedId, String.toList_append] at htext
  exact Text.toString_injective (String.toList_inj.mp (List.append_cancel_left htext))

/-- The first number whose id is free. -/
structure FirstFree (g : Graph) (e : Edge) (n : Nat) : Prop where
  two_le : 2 ≤ n
  free : ¬ g.Taken (.text (e.numberedId n))
  least : ∀ m, 2 ≤ m → m < n → g.Taken (.text (e.numberedId m))

/-- Fewer ids are taken than there are numbers to try. -/
theorem exists_free (g : Graph) (e : Edge) :
    ∃ k ∈ List.range (g.edges.length + 1), g.hasEdgeKey (.text (e.numberedId (k + 2))) = false := by
  by_contra hn
  simp only [not_exists, not_and, Bool.not_eq_false] at hn
  -- Otherwise all the ids that are tried belong to edges, and they are one more than there are edges.
  let tried := (List.range (g.edges.length + 1)).map fun k => some (Key.text (e.numberedId (k + 2)))
  have hd : tried.Nodup := by
    refine List.nodup_range.map ?_
    intro j k h
    have := numberedId_injective e (Key.text.inj (Option.some.inj h))
    omega
  have hs : tried ⊆ g.edgeKeys := by
    intro key h
    obtain ⟨k, hk, rfl⟩ := List.mem_map.mp h
    exact hasEdgeKey_iff.mp (hn k hk)
  have hl := (List.subperm_of_subset hd hs).length_le
  simp only [tried, edgeKeys, List.length_map, List.length_range] at hl
  omega

theorem freeNumber_spec (g : Graph) (e : Edge) :
    g.FirstFree e (g.freeNumber e) ∧ g.freeNumber e ≤ g.edges.length + 2 := by
  let free (k : Nat) : Bool := !g.hasEdgeKey (.text (e.numberedId (k + 2)))
  obtain ⟨k, hk, hfree⟩ := exists_free g e
  have hsome : ((List.range (g.edges.length + 1)).find? free).isSome :=
    List.find?_isSome.mpr ⟨k, hk, by simp [free, hfree]⟩
  obtain ⟨i, hi⟩ := Option.isSome_iff_exists.mp hsome
  have hnumber : g.freeNumber e = i + 2 := by
    simp only [freeNumber, List.find?_map]
    change (Option.map _ ((List.range (g.edges.length + 1)).find? free)).getD _ = _
    rw [hi]
    rfl
  obtain ⟨hp, hrange, hleast⟩ := List.find?_range_eq_some.mp hi
  rw [hnumber]
  refine ⟨⟨by omega, ?_, ?_⟩, ?_⟩
  · intro ht
    have := hasEdgeKey_iff.mpr ht
    simp [free, this] at hp
  · intro m hm hlt
    have := hleast (m - 2) (by omega)
    rw [show m = m - 2 + 2 by omega]
    exact hasEdgeKey_iff.mp (by simpa [free] using this)
  · have := List.mem_range.mp hrange
    omega

/-! ### Edges -/

theorem named_key (hk : e.id.key? = some key) :
    g.named e =
      .ok (if g.hasEdgeKey key then { e with id := .text (e.numberedId (g.freeNumber e)) } else e) := by
  simp only [named, keyOf, hk, bind, Except.bind, pure, Except.pure]
  split <;> rfl

theorem named_no_key (hk : e.id.key? = none) : ∃ f, g.named e = .error f :=
  ⟨_, by simp only [named, keyOf, hk, bind, Except.bind]; rfl⟩

theorem addEdge_of_has (hs : g.Has e.source) (ht : g.Has e.target) :
    g.addEdge e = (g.named e).map fun e' => ({ g with edges := g.edges ++ [e'] }, e') := by
  simp only [addEdge, hasNode_of_has hs, hasNode_of_has ht, bind, Except.bind, pure, Except.pure]
  cases g.named e <;> rfl

theorem addEdge_of_missing (h : ¬ (g.Has e.source ∧ g.Has e.target)) : ∃ f, g.addEdge e = .error f := by
  by_cases hs : g.Has e.source
  · have ht : ¬ g.Has e.target := fun ht => h ⟨hs, ht⟩
    rcases hasNode_of_not_has ht with hf | ⟨f, hf⟩
    · exact ⟨_, by simp only [addEdge, hasNode_of_has hs, hf, bind, Except.bind]; rfl⟩
    · exact ⟨_, by simp only [addEdge, hasNode_of_has hs, hf, bind, Except.bind]; rfl⟩
  · rcases hasNode_of_not_has hs with hf | ⟨f, hf⟩
    · exact ⟨_, by simp only [addEdge, hf, bind, Except.bind]; rfl⟩
    · exact ⟨_, by simp only [addEdge, hf, bind, Except.bind]; rfl⟩

/-- What adding an edge makes of a graph, and of the edge. -/
structure Gains (g : Graph) (e : Edge) (g' : Graph) (e' : Edge) : Prop where
  graph : g' = { g with edges := g.edges ++ [e'] }
  fields : e' = { e with id := e'.id }
  kept : ¬ g.Taken e.id → e'.id = e.id
  numbered : g.Taken e.id → ∃ n ≤ g.edges.length + 2, g.FirstFree e n ∧ e'.id = .text (e.numberedId n)

theorem gains_named (hk : e.id.key? = some key) (h : g.named e = .ok e') :
    g.Gains e { g with edges := g.edges ++ [e'] } e' := by
  rw [named_key hk] at h
  have ht : g.hasEdgeKey key = true ↔ g.Taken e.id := by rw [hasEdgeKey_iff, Taken, hk]
  obtain ⟨hfree, hle⟩ := freeNumber_spec g e
  split at h
  · rename_i hm
    cases h
    exact ⟨rfl, rfl, fun hn => absurd (ht.mp hm) hn, fun _ => ⟨_, hle, hfree, rfl⟩⟩
  · rename_i hm
    cases h
    exact ⟨rfl, rfl, fun _ => rfl, fun hn => absurd (ht.mpr hn) hm⟩

/-- An edge that has been added had both its ends and an id to be told by. -/
theorem gains_of_addEdge (h : g.addEdge e = .ok (g', e')) :
    g.Has e.source ∧ g.Has e.target ∧ g.Gains e g' e' := by
  by_cases hb : g.Has e.source ∧ g.Has e.target
  · refine ⟨hb.1, hb.2, ?_⟩
    rw [addEdge_of_has hb.1 hb.2] at h
    cases hk : e.id.key? with
    | none =>
      obtain ⟨f, hf⟩ := named_no_key (g := g) hk
      rw [hf] at h
      cases h
    | some key =>
      cases hn : g.named e with
      | error f => rw [hn] at h; cases h
      | ok named =>
        rw [hn] at h
        cases h
        exact gains_named hk hn
  · obtain ⟨f, hf⟩ := addEdge_of_missing hb
    rw [hf] at h
    cases h

theorem Gains.free (h : g.Gains e g' e') : ¬ g.Taken e'.id := by
  by_cases ht : g.Taken e.id
  · obtain ⟨n, -, hfree, hid⟩ := h.numbered ht
    rw [hid]
    exact hfree.free
  · rw [h.kept ht]
    exact ht

/-! ### Rows of additions -/

inductive Addition where
  | node (n : Node)
  | edge (e : Edge)

/-- The graph after an addition, or why there is none. -/
def add (g : Graph) : Addition → Except Fault Graph
  | .node n => g.addNode n
  | .edge e => return (← g.addEdge e).1

/-- The graph after an addition; one that fails leaves it as it is. -/
def attempt (g : Graph) (a : Addition) : Graph :=
  match g.add a with
  | .ok g' => g'
  | .error _ => g

def addAll (g : Graph) (row : List Addition) : Graph := row.foldl attempt g

/-- The keys of the nodes that a row brings in, as often as it does. -/
def broughtKeys (row : List Addition) : List Key :=
  row.filterMap fun
    | .node n => n.id.key?
    | .edge _ => none

structure Sound (g : Graph) : Prop where
  named : ∀ slot ∈ g.slots, slot.id.key? = slot.node.id.key?
  nodes_apart : g.nodeKeys.Nodup
  anchored : ∀ e ∈ g.edges, g.Has e.source ∧ g.Has e.target
  edges_apart : g.edgeKeys.Nodup

theorem attempt_node (hk : n.id.key? = some key) :
    g.attempt (.node n) = { g with slots := putNode key n g.slots } := by
  simp [attempt, add, addNode_key hk]

theorem attempt_node_no_key (hk : n.id.key? = none) : g.attempt (.node n) = g := by
  obtain ⟨f, hf⟩ := addNode_no_key (g := g) hk
  simp [attempt, add, hf]

theorem attempt_edge (g : Graph) (e : Edge) :
    (∃ e', g.addEdge e = .ok (g.attempt (.edge e), e')) ∨
      ((∃ f, g.addEdge e = .error f) ∧ g.attempt (.edge e) = g) := by
  cases h : g.addEdge e with
  | error f => exact Or.inr ⟨⟨f, rfl⟩, by simp [attempt, add, h, bind, Except.bind]⟩
  | ok r => exact Or.inl ⟨r.2, by simp [attempt, add, h, bind, Except.bind, pure, Except.pure]⟩

theorem nodeKeys_attempt_node (hk : n.id.key? = some key) :
    (g.attempt (.node n)).nodeKeys =
      if some key ∈ g.nodeKeys then g.nodeKeys else g.nodeKeys ++ [some key] := by
  rw [attempt_node hk]
  exact keys_putNode hk g.slots

theorem nodeKeys_attempt_edge (g : Graph) (e : Edge) :
    (g.attempt (.edge e)).nodeKeys = g.nodeKeys := by
  rcases attempt_edge g e with ⟨e', h⟩ | ⟨-, h⟩
  · rw [(gains_of_addEdge h).2.2.graph]
    rfl
  · rw [h]

theorem has_attempt {id : Json} (h : g.Has id) (a : Addition) : (g.attempt a).Has id := by
  obtain ⟨key, hk, hm⟩ := h
  refine ⟨key, hk, ?_⟩
  cases a with
  | node n =>
    cases hn : n.id.key? with
    | none => rwa [attempt_node_no_key hn]
    | some new =>
      rw [nodeKeys_attempt_node hn]
      split
      · exact hm
      · exact List.mem_append_left _ hm
  | edge e => rwa [nodeKeys_attempt_edge]

theorem sound_attempt_node (h : g.Sound) (n : Node) : (g.attempt (.node n)).Sound := by
  cases hk : n.id.key? with
  | none => rwa [attempt_node_no_key hk]
  | some key =>
    have hedges : (g.attempt (.node n)).edges = g.edges := by rw [attempt_node hk]
    constructor
    · intro slot hm
      rw [attempt_node hk] at hm
      rcases mem_putNode hk hm with hm | ⟨rfl, hs⟩
      · exact h.named slot hm
      · rw [hs, hk]
    · rw [nodeKeys_attempt_node hk]
      split
      · exact h.nodes_apart
      · rename_i hm
        exact nodup_concat h.nodes_apart hm
    · intro e he
      rw [hedges] at he
      exact ⟨has_attempt (h.anchored e he).1 _, has_attempt (h.anchored e he).2 _⟩
    · rw [edgeKeys, hedges]
      exact h.edges_apart

theorem sound_attempt_edge (h : g.Sound) (e : Edge) : (g.attempt (.edge e)).Sound := by
  rcases attempt_edge g e with ⟨e', ha⟩ | ⟨-, hg⟩
  · obtain ⟨hs, ht, hgains⟩ := gains_of_addEdge ha
    have hgraph := hgains.graph
    constructor
    · rw [hgraph]
      exact h.named
    · rw [nodeKeys_attempt_edge]
      exact h.nodes_apart
    · intro d hd
      have hd' : d ∈ g.edges ∨ d = e' := by
        rw [hgraph] at hd
        simpa using hd
      rcases hd' with hd | rfl
      · exact ⟨has_attempt (h.anchored d hd).1 _, has_attempt (h.anchored d hd).2 _⟩
      -- the new edge keeps the ends it asks for, and these are nodes already
      · rw [hgains.fields]
        exact ⟨has_attempt hs _, has_attempt ht _⟩
    · rw [edgeKeys, hgraph, List.map_append]
      exact nodup_concat h.edges_apart hgains.free
  · rwa [hg]

theorem sound_attempt (h : g.Sound) (a : Addition) : (g.attempt a).Sound := by
  cases a with
  | node n => exact sound_attempt_node h n
  | edge e => exact sound_attempt_edge h e

theorem sound_empty (title : Json) : ({ title } : Graph).Sound :=
  ⟨by simp, by simp [nodeKeys], by simp, by simp [edgeKeys]⟩

theorem sound_addAll (h : g.Sound) (row : List Addition) : (g.addAll row).Sound := by
  induction row generalizing g with
  | nil => exact h
  | cons a row ih => exact ih (sound_attempt h a)

theorem addAll_concat (g : Graph) (row : List Addition) (a : Addition) :
    g.addAll (row ++ [a]) = (g.addAll row).attempt a := by
  simp [addAll]

theorem broughtKeys_concat (row : List Addition) (a : Addition) :
    broughtKeys (row ++ [a]) = broughtKeys row ++ broughtKeys [a] := by
  simp only [broughtKeys, List.filterMap_append]

theorem nodeKeys_addAll (title : Json) (row : List Addition) :
    (addAll { title } row).nodeKeys = (broughtKeys row).eraseDups.map some := by
  induction row using List.reverseRecOn with
  | nil => rfl
  | append_singleton row a ih =>
    rw [addAll_concat, broughtKeys_concat]
    cases a with
    | node n =>
      cases hk : n.id.key? with
      | none =>
        have hb : broughtKeys [.node n] = [] := by simp [broughtKeys, hk]
        rw [attempt_node_no_key hk, hb, List.append_nil, ih]
      | some key =>
        have hb : broughtKeys [.node n] = [key] := by simp [broughtKeys, hk]
        rw [nodeKeys_attempt_node hk, hb, eraseDups_concat, ih]
        by_cases hm : key ∈ broughtKeys row <;> simp [hm]
    | edge e =>
      have hb : broughtKeys [.edge e] = [] := rfl
      rw [nodeKeys_attempt_edge, hb, List.append_nil, ih]

/-- An edge whose id can be told by a key fails only for want of an end. -/
theorem addEdge_fails_iff (hk : e.id.key? ≠ none) :
    (∃ f, g.addEdge e = .error f) ↔ ¬ (g.Has e.source ∧ g.Has e.target) := by
  constructor
  · rintro ⟨f, hf⟩ ⟨hs, ht⟩
    obtain ⟨key, hk⟩ := Option.ne_none_iff_exists'.mp hk
    rw [addEdge_of_has hs ht, named_key hk] at hf
    cases hf
  · exact addEdge_of_missing

/-- After any row of additions a graph is sound and its nodes stand in the order in which their ids came
up. An edge that is added next fails for want of an end, and then nothing changes, or else it comes after
the others with the id it asks for if that is free and the first free numbered one if not. -/
theorem additions_build_sound_graphs (title : Json) (row : List Addition) (e : Edge)
    (hk : e.id.key? ≠ none) :
    let g := addAll { title } row
    g.Sound ∧ g.nodeKeys = (broughtKeys row).eraseDups.map some ∧
      ((∃ f, g.addEdge e = .error f) ↔ ¬ (g.Has e.source ∧ g.Has e.target)) ∧
      ((∃ f, g.addEdge e = .error f) → addAll { title } (row ++ [.edge e]) = g) ∧
      ∀ g' e', g.addEdge e = .ok (g', e') →
        g.Gains e g' e' ∧ addAll { title } (row ++ [.edge e]) = g' := by
  intro g
  refine ⟨sound_addAll (sound_empty title) row, nodeKeys_addAll title row, addEdge_fails_iff hk, ?_, ?_⟩
  · rintro ⟨f, hf⟩
    rw [addAll_concat]
    rcases attempt_edge g e with ⟨e', h⟩ | ⟨-, h⟩
    · rw [hf] at h
      cases h
    · exact h
  · intro g' e' h
    refine ⟨(gains_of_addEdge h).2.2, ?_⟩
    rw [addAll_concat]
    rcases attempt_edge g e with ⟨d, hd⟩ | ⟨⟨f, hf⟩, -⟩
    · rw [h] at hd
      cases hd
      rfl
    · rw [hf] at h
      cases h

/-- Four nodes, and edges whose ids meet: two pairs of ends derive the same id, and the first number is
taken by an edge that asks for it. One edge lacks an end. -/
def crossing : List Addition :=
  let node (id : String) : Addition := .node (.ofId (.text id))
  let edge (source target id : String) : Addition :=
    .edge (.made (.text source) (.text target) .null (.whole 1) .line (.text id) .null)
  [node "a-b", node "c", node "a", node "b-c", edge "a-b" "c" "", edge "c" "a" "a-b-c#2",
    edge "a" "x" ""]

def crossed : Edge := .made (.text "a") (.text "b-c") .null (.whole 1) .line .null .null

theorem crossing_builds_sound_graph :
    crossed.id.key? ≠ none ∧ (addAll {} crossing).Sound ∧
      (∀ g' e', (addAll {} crossing).addEdge crossed = .ok (g', e') →
        (addAll {} crossing).Gains crossed g' e' ∧ addAll {} (crossing ++ [.edge crossed]) = g') ∧
      (addAll {} (crossing ++ [.edge crossed])).edgeKeys =
        [some (.text "a-b-c"), some (.text "a-b-c#2"), some (.text "a-b-c#3")] := by
  have hk : crossed.id.key? ≠ none := by decide
  obtain ⟨hs, -, -, -, hg⟩ :=
    additions_build_sound_graphs (.text defaultTitle) crossing crossed hk
  exact ⟨hk, hs, hg, rfl⟩

end NodeLink.Graph
