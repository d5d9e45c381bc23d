import NodeLink.Canvas
import NodeLink.Proofs.Graph.Building
import NodeLink.Proofs.Number.Doubles
import NodeLink.Proofs.Outcome

/-!
# Canvases that are brought up to date

The calls for a graph clear the canvas, add every node, then every edge between nodes of the graph, and redraw. A canvas
that takes no node twice and no edge without its ends takes them all, whatever it held before, and holds just what the
graph calls for.
-/

namespace NodeLink

/-! ### Sizes -/

/-- What a number stands for: a place on the extended real line, unless it is no number. -/
noncomputable def Number.place? : Number → Option EReal
  | .whole n => some ((n : ℝ) : EReal)
  | .real x =>
    match Binary64.view x with
    | .undefined => none
    | .infinite neg => some (if neg then ⊥ else ⊤)
    | .finite .. => some (Binary64.toReal x : ℝ)

/-- A whole number is compared exactly with any other. -/
theorem Number.whole_lt_iff (a : ℤ) (n : Number) :
    (Number.whole a).lt n = true ↔ ∃ v, n.place? = some v ∧ ((a : ℝ) : EReal) < v := by
  cases n with
  | whole n => simp [Number.lt, Number.place?]
  | real x =>
    have hlt : (Number.whole a).lt (.real x) = (compareWhole? a x == some .lt) := rfl
    rw [hlt, place?, compareWhole?]
    cases hview : Binary64.view x with
    | undefined => simp
    | infinite neg => cases neg <;> simp [EReal.coe_lt_top]
    | finite neg m e =>
      have hreal : Binary64.toReal x = (if neg then -1 else 1) * m * ((2 : ℕ) : ℝ) ^ e := by
        rw [Binary64.toReal, hview]
      simp [Binary64.compareExact_lt, hreal]

namespace Json

/-- A value that counts as a number. -/
def number? (value : Json) : Option Number := (Value.ofJson value).number?

noncomputable def place? (value : Json) : Option EReal := value.number?.bind Number.place?

end Json

/-- The larger of a floor and a size is given. It is the floor where the size is not above it. -/
structure LargerOf (floor : ℤ) (size given : Json) : Prop where
  above : ∀ v, size.place? = some v → ((floor : ℝ) : EReal) < v → given = size
  floored : (∀ v, size.place? = some v → v ≤ ((floor : ℝ) : EReal)) → given = .whole floor
  largest : ∀ v, size.place? = some v → given.place? = some (max ((floor : ℝ) : EReal) v)

theorem CanvasCall.atLeast_larger (floor : ℤ) {size : Json} (h : size.number? ≠ none) :
    Succeeds (atLeast floor size) (LargerOf floor size) := by
  obtain ⟨n, hn⟩ := Option.ne_none_iff_exists'.mp h
  have hplace : size.place? = n.place? := by rw [Json.place?, hn, Option.bind_some]
  have hgt : Scalar.gt (Value.ofJson size) (.whole floor : Value) = .ok ((Number.whole floor).lt n) := by
    unfold Json.number? at hn
    cases hvalue : Value.ofJson size with
    | whole k | real x =>
      rw [hvalue] at hn
      cases hn
      rfl
    | other value | fault cause =>
      rw [hvalue] at hn
      cases hn
  have hgiven : atLeast floor size = .ok (if (Number.whole floor).lt n then size else .whole floor) := by
    rw [atLeast, hgt]
    rfl
  refine ⟨_, hgiven, ?_⟩
  by_cases hlt : (Number.whole floor).lt n = true
  · obtain ⟨v, hv, habove⟩ := (Number.whole_lt_iff floor n).mp hlt
    rw [if_pos hlt]
    constructor
    · exact fun _ _ _ => rfl
    · intro hle
      exact absurd habove (not_lt.mpr (hle v (hplace.trans hv)))
    · intro w hw
      rw [hplace, hv, Option.some.injEq] at hw
      rw [hplace, hv, ← hw, max_eq_right habove.le]
  · rw [if_neg hlt]
    have hle : ∀ v, size.place? = some v → v ≤ ((floor : ℝ) : EReal) := fun v hv =>
      not_lt.mp fun habove => hlt ((Number.whole_lt_iff floor n).mpr ⟨v, hplace.symm.trans hv, habove⟩)
    constructor
    · exact fun v hv habove => absurd habove (not_lt.mpr (hle v hv))
    · exact fun _ => rfl
    · intro v hv
      rw [max_eq_left (hle v hv)]
      rfl

/-! ### Canvases -/

/-- A node of a canvas. -/
structure ShownNode where
  id : Json
  attributes : List (String × Json)

structure ShownEdge where
  source : Json
  target : Json
  attributes : List (String × Json)

def ShownNode.call (n : ShownNode) : CanvasCall := .addNode n.id n.attributes

def ShownEdge.call (e : ShownEdge) : CanvasCall := .addEdge e.source e.target e.attributes

structure Canvas where
  nodes : List ShownNode := []
  edges : List ShownEdge := []
  /-- Nothing has changed since it was last redrawn. -/
  drawn : Bool := false

namespace Canvas

variable {c : Canvas} {nodes : List ShownNode} {edges : List ShownEdge}

def Holds (c : Canvas) (id : Json) : Prop := id.key? ≠ none ∧ ∃ node ∈ c.nodes, node.id.key? = id.key?

instance (c : Canvas) (id : Json) : Decidable (c.Holds id) :=
  inferInstanceAs (Decidable (_ ∧ ∃ node ∈ c.nodes, _))

/-- The canvas after a call. It takes no node that it holds, and no edge without its ends. -/
def perform (c : Canvas) : CanvasCall → Option Canvas
  | .clear => some {}
  | .addNode id attributes =>
    if c.Holds id then none else some { c with nodes := c.nodes ++ [⟨id, attributes⟩], drawn := false }
  | .addEdge source target attributes =>
    if c.Holds source ∧ c.Holds target then
      some { c with edges := c.edges ++ [⟨source, target, attributes⟩], drawn := false }
    else none
  | .refresh => some { c with drawn := true }

def performAll (c : Canvas) (calls : List CanvasCall) : Option Canvas := calls.foldlM perform c

/-- Nodes of different keys are taken one after the other. -/
theorem performAll_nodes (more : List ShownNode) (hapart : ((nodes ++ more).map (·.id.key?)).Nodup) :
    performAll { nodes, edges } (more.map ShownNode.call) = some { nodes := nodes ++ more, edges } := by
  induction more generalizing nodes with
  | nil => simp [performAll]
  | cons n more ih =>
    have hnew : ¬Holds { nodes, edges } n.id := by
      rintro ⟨-, node, hnode, hkey⟩
      rw [List.map_append, List.nodup_append] at hapart
      exact hapart.2.2 _ (List.mem_map_of_mem hnode) _ (List.mem_cons_self) hkey
    have hstep : perform { nodes, edges } n.call = some { nodes := nodes ++ [n], edges } := if_neg hnew
    rw [List.append_cons] at hapart ⊢
    rw [performAll, List.map_cons, List.foldlM_cons, hstep]
    exact ih hapart

/-- So are edges between nodes that are there. -/
theorem performAll_edges (more : List ShownEdge)
    (hends : ∀ e ∈ more, Holds { nodes, edges } e.source ∧ Holds { nodes, edges } e.target) :
    performAll { nodes, edges } (more.map ShownEdge.call) = some { nodes, edges := edges ++ more } := by
  rw [performAll, List.foldlM_map]
  refine foldlM_collect (fun edges => { nodes, edges : Canvas }) (fun e he read => ?_) edges
  exact if_pos (hends e he)

theorem performAll_append (c : Canvas) (front back : List CanvasCall) :
    c.performAll (front ++ back) = (c.performAll front).bind (performAll · back) :=
  List.foldlM_append ..

/-- Nothing is left of what a canvas held before it is cleared. -/
theorem performAll_replaces (c : Canvas) (hapart : (nodes.map (·.id.key?)).Nodup)
    (hends : ∀ e ∈ edges, Holds { nodes } e.source ∧ Holds { nodes } e.target) :
    c.performAll (.clear :: nodes.map ShownNode.call ++ edges.map ShownEdge.call ++ [.refresh]) =
      some { nodes, edges, drawn := true } := by
  have hclear : c.performAll [.clear] = some {} := rfl
  have hnodes : performAll {} (nodes.map ShownNode.call) = some { nodes } := performAll_nodes nodes hapart
  have hedges : performAll { nodes } (edges.map ShownEdge.call) = some { nodes, edges } := performAll_edges edges hends
  rw [List.cons_append, List.cons_append, ← List.singleton_append, List.append_assoc, performAll_append, hclear,
    Option.bind_some, performAll_append, hnodes, Option.bind_some, performAll_append, hedges]
  rfl

end Canvas

/-! ### Graphs -/

/-- How a kind is drawn: with the same heads, and curved if it was or is to be. -/
structure EdgeKind.DrawnAs (curved : Bool) (kind drawn : EdgeKind) : Prop where
  endArrow : drawn.endArrow = kind.endArrow
  startArrow : drawn.startArrow = kind.startArrow
  isCurved : drawn.isCurved = (curved || kind.isCurved)

theorem EdgeKind.drawnAs (curved : Bool) (kind : EdgeKind) :
    DrawnAs curved kind (if curved then kind.asCurved else kind) := by
  cases curved <;> cases kind <;> exact ⟨rfl, rfl, rfl⟩

structure Node.Shows (n : Node) (shown : ShownNode) : Prop where
  id : shown.id = n.id
  attributes : ∃ size, LargerOf 5 n.size size ∧ shown.attributes =
    [("label", n.label), ("size", size), ("color", n.color), ("x", n.x), ("y", n.y), ("image", n.icon)]

structure Edge.Shows (curved : Bool) (e : Edge) (shown : ShownEdge) : Prop where
  source : shown.source = e.source
  target : shown.target = e.target
  attributes : ∃ size kind, LargerOf 1 e.size size ∧ EdgeKind.DrawnAs curved e.kind kind ∧ shown.attributes =
    [("label", e.label.orElse (.text "")), ("size", size), ("color", e.color.orElse (.text "#999")),
      ("type", .text kind.name)]

namespace Graph

variable {g : Graph} {e : Edge} {n : Node} {curved : Bool} {nodes : List ShownNode}

def Anchored (g : Graph) (e : Edge) : Prop := g.Has e.source ∧ g.Has e.target

instance (g : Graph) (id : Json) : Decidable (g.Has id) :=
  match h : id.key? with
  | none => isFalse fun ⟨_, hkey, _⟩ => nomatch h.symm.trans hkey
  | some key => decidable_of_iff (some key ∈ g.nodeKeys)
      ⟨fun hm => ⟨key, h, hm⟩, fun ⟨_, hkey, hm⟩ => h.symm.trans hkey ▸ hm⟩

instance (g : Graph) (e : Edge) : Decidable (g.Anchored e) := inferInstanceAs (Decidable (_ ∧ _))

/-- Ends of edges can be looked up, and sizes are numbers. Edges need no ends in the graph. -/
structure Syncable (g : Graph) : Prop where
  ends : ∀ e ∈ g.edges, e.source.key? ≠ none ∧ e.target.key? ≠ none
  nodeSizes : ∀ n ∈ g.nodes, n.size.number? ≠ none
  edgeSizes : ∀ e ∈ g.edges, g.Anchored e → e.size.number? ≠ none

/-- Nodes are found by their own ids. -/
structure Keyed (g : Graph) : Prop where
  named : ∀ slot ∈ g.slots, slot.id.key? = slot.node.id.key?
  apart : g.nodeKeys.Nodup

/-- Nodes that have been added are found by their ids, whatever edges there are. -/
theorem keyed_addAll (title : Json) (row : List Addition) (edges : List Edge) :
    Keyed { addAll { title } row with edges } :=
  have hsound := sound_addAll (sound_empty title) row
  ⟨hsound.named, hsound.nodes_apart⟩

theorem isAnchored_eq (hsource : e.source.key? ≠ none) (htarget : e.target.key? ≠ none) :
    g.isAnchored e = .ok (decide (g.Anchored e)) := by
  have hend {id : Json} (h : id.key? ≠ none) : g.hasNode id = .ok (decide (g.Has id)) := by
    obtain ⟨key, hkey⟩ := Option.ne_none_iff_exists'.mp h
    have hhas : g.Has id ↔ some key ∈ g.nodeKeys := by simp [Has, hkey]
    rw [hasNode_key hkey, decide_eq_decide.mpr hhas]
  rw [isAnchored, bind_of_ok (hend hsource), hend htarget]
  by_cases hhas : g.Has e.source
  · simp [Anchored, hhas]
  · simp [Anchored, hhas]
    rfl

theorem ofNode_shows (h : n.size.number? ≠ none) :
    ∃ shown : ShownNode, CanvasCall.ofNode n = .ok shown.call ∧ n.Shows shown := by
  obtain ⟨size, hsize, hlarger⟩ := CanvasCall.atLeast_larger 5 h
  refine ⟨⟨n.id, _⟩, ?_, rfl, size, hlarger, rfl⟩
  rw [CanvasCall.ofNode, bind_of_ok hsize]
  rfl

theorem ofEdge_shows (curved : Bool) (h : e.size.number? ≠ none) :
    ∃ shown : ShownEdge, CanvasCall.ofEdge curved e = .ok shown.call ∧ e.Shows curved shown := by
  obtain ⟨size, hsize, hlarger⟩ := CanvasCall.atLeast_larger 1 h
  refine ⟨⟨e.source, e.target, _⟩, ?_, rfl, rfl, size, _, hlarger, EdgeKind.drawnAs curved e.kind, rfl⟩
  rw [CanvasCall.ofEdge, bind_of_ok hsize]
  rfl

theorem nodes_shown {given : List Node} (h : ∀ n ∈ given, n.size.number? ≠ none) :
    ∃ nodes : List ShownNode, given.mapM CanvasCall.ofNode = .ok (nodes.map ShownNode.call) ∧
      List.Forall₂ Node.Shows given nodes := by
  induction given with
  | nil => exact ⟨[], rfl, .nil⟩
  | cons n given ih =>
    obtain ⟨hn, hrest⟩ := List.forall_mem_cons.mp h
    obtain ⟨shown, hcall, hshows⟩ := ofNode_shows hn
    obtain ⟨nodes, hcalls, hall⟩ := ih hrest
    refine ⟨shown :: nodes, ?_, .cons hshows hall⟩
    rw [List.mapM_cons, bind_of_ok hcall, bind_of_ok hcalls]
    rfl

theorem edgeCall?_anchored (he : g.Anchored e) (h : e.size.number? ≠ none) :
    ∃ shown : ShownEdge, g.edgeCall? curved e = .ok (some shown.call) ∧ e.Shows curved shown := by
  obtain ⟨shown, hcall, hshows⟩ := ofEdge_shows curved h
  have hends : e.source.key? ≠ none ∧ e.target.key? ≠ none := by
    obtain ⟨⟨_, hsource, -⟩, ⟨_, htarget, -⟩⟩ := he
    simp [hsource, htarget]
  refine ⟨shown, ?_, hshows⟩
  rw [edgeCall?, bind_of_ok (isAnchored_eq hends.1 hends.2), if_pos (decide_eq_true he), bind_of_ok hcall]
  rfl

theorem edgeCall?_dangling (he : ¬g.Anchored e) (hends : e.source.key? ≠ none ∧ e.target.key? ≠ none) :
    g.edgeCall? curved e = .ok none := by
  rw [edgeCall?, bind_of_ok (isAnchored_eq hends.1 hends.2), if_neg (by simpa using he)]
  rfl

theorem edges_shown {given : List Edge} (hends : ∀ e ∈ given, e.source.key? ≠ none ∧ e.target.key? ≠ none)
    (hsizes : ∀ e ∈ given, g.Anchored e → e.size.number? ≠ none) :
    ∃ calls, ∃ edges : List ShownEdge, given.mapM (g.edgeCall? curved) = .ok calls ∧
      calls.filterMap id = edges.map ShownEdge.call ∧
        List.Forall₂ (Edge.Shows curved) (given.filter (g.Anchored ·)) edges := by
  induction given with
  | nil => exact ⟨[], [], rfl, rfl, .nil⟩
  | cons e given ih =>
    obtain ⟨hend, hends⟩ := List.forall_mem_cons.mp hends
    obtain ⟨hsize, hsizes⟩ := List.forall_mem_cons.mp hsizes
    obtain ⟨calls, edges, hcalls, hedges, hall⟩ := ih hends hsizes
    rw [List.mapM_cons, List.filter_cons]
    by_cases he : g.Anchored e
    · obtain ⟨shown, hcall, hshows⟩ := edgeCall?_anchored he (hsize he)
      rw [if_pos (decide_eq_true he), bind_of_ok hcall, bind_of_ok hcalls]
      exact ⟨_, shown :: edges, rfl, congrArg (shown.call :: ·) hedges, .cons hshows hall⟩
    · rw [if_neg (by simpa using he), bind_of_ok (edgeCall?_dangling he hend), bind_of_ok hcalls]
      exact ⟨_, edges, rfl, hedges, hall⟩

theorem canvasCalls_shown (h : g.Syncable) (curved : Bool) :
    ∃ (nodes : List ShownNode) (edges : List ShownEdge), g.canvasCalls curved =
        .ok (.clear :: nodes.map ShownNode.call ++ edges.map ShownEdge.call ++ [.refresh]) ∧
      List.Forall₂ Node.Shows g.nodes nodes ∧
        List.Forall₂ (Edge.Shows curved) (g.edges.filter (g.Anchored ·)) edges := by
  obtain ⟨nodes, hnodes, hshown⟩ := nodes_shown h.nodeSizes
  obtain ⟨calls, edges, hcalls, hedges, hall⟩ := edges_shown h.ends h.edgeSizes
  refine ⟨nodes, edges, ?_, hshown, hall⟩
  rw [canvasCalls, bind_of_ok hnodes, bind_of_ok hcalls, hedges]
  rfl

theorem Keyed.shown (h : g.Keyed) (hnodes : List.Forall₂ Node.Shows g.nodes nodes) :
    nodes.map (·.id.key?) = g.nodeKeys := by
  have hkeys : g.nodeKeys = g.nodes.map (·.id.key?) := by
    rw [nodeKeys, Graph.nodes, List.map_map]
    exact List.map_congr_left h.named
  rw [hkeys]
  generalize g.nodes = given at hnodes
  induction hnodes with
  | nil => rfl
  | cons hshows _ ih => rw [List.map_cons, List.map_cons, ih, hshows.id]

theorem Keyed.ends_shown (h : g.Keyed) (hnodes : List.Forall₂ Node.Shows g.nodes nodes) {edges : List ShownEdge}
    (hedges : List.Forall₂ (Edge.Shows curved) (g.edges.filter (g.Anchored ·)) edges) :
    ∀ e ∈ edges, Canvas.Holds { nodes } e.source ∧ Canvas.Holds { nodes } e.target := by
  have hholds {id : Json} (hid : g.Has id) : Canvas.Holds { nodes } id := by
    obtain ⟨key, hkey, hmem⟩ := hid
    rw [← h.shown hnodes] at hmem
    obtain ⟨n, hn, hnode⟩ := List.mem_map.mp hmem
    exact ⟨by simp [hkey], n, hn, hnode.trans hkey.symm⟩
  intro e he
  obtain ⟨given, hgiven, hshows⟩ := exists_of_forall₂ hedges he
  have hanchored : g.Anchored given := by simpa using (List.mem_filter.mp hgiven).2
  exact ⟨hshows.source ▸ hholds hanchored.1, hshows.target ▸ hholds hanchored.2⟩

/-- Whatever the edges of a graph are, its calls clear a canvas once, add all nodes and then the edges between them, and
redraw once. Where nodes are found by their own ids, every edge is between nodes that have been added, and a canvas takes
all the calls and shows the nodes and edges of the graph, whatever it held before. What comes of the calls is the same
for all canvases that forget what they hold when they are cleared. -/
theorem syncs_replace_what_is_shown (g : Graph) (curved : Bool) (hsync : g.Syncable) :
    ∃ (nodes : List ShownNode) (edges : List ShownEdge) (calls : List CanvasCall),
      g.canvasCalls curved = .ok calls ∧
      calls = .clear :: nodes.map ShownNode.call ++ edges.map ShownEdge.call ++ [.refresh] ∧
      List.Forall₂ Node.Shows g.nodes nodes ∧
      List.Forall₂ (Edge.Shows curved) (g.edges.filter (g.Anchored ·)) edges ∧
      (g.Keyed → (∀ e ∈ edges, Canvas.Holds { nodes } e.source ∧ Canvas.Holds { nodes } e.target) ∧
        ∀ c : Canvas, c.performAll calls = some { nodes, edges, drawn := true }) ∧
      ∀ {σ : Type} (perform : σ → CanvasCall → σ), (∀ s s', perform s .clear = perform s' .clear) →
        ∀ s s', calls.foldl perform s = calls.foldl perform s' := by
  obtain ⟨nodes, edges, hcalls, hnodes, hedges⟩ := canvasCalls_shown hsync curved
  refine ⟨nodes, edges, _, hcalls, rfl, hnodes, hedges, fun hkeyed => ?_, ?_⟩
  · have hends := hkeyed.ends_shown hnodes hedges
    have hapart : (nodes.map (·.id.key?)).Nodup := by
      rw [hkeyed.shown hnodes]
      exact hkeyed.apart
    exact ⟨hends, fun c => c.performAll_replaces hapart hends⟩
  · intro σ perform hclear s s'
    rw [List.cons_append, List.cons_append, List.foldl_cons, List.foldl_cons, hclear s s']

/-- A small and a large node, an edge between them and one that leads nowhere. -/
def dangling : Graph :=
  let node (id : String) (size : Int) : Addition :=
    .node (.made (.text id) .null (.whole size) (.text "#666") .null .null .null)
  { addAll {} [node "A" 2, node "B" 20] with
    edges := [.made (.text "A") (.text "C") .null (.whole 3) .line .null .null,
      .made (.text "A") (.text "B") .null (.whole 0) .arrow .null .null] }

def danglingCalls : List CanvasCall :=
  let attributes (id : String) (size : Int) : List (String × Json) :=
    [("label", .text id), ("size", .whole size), ("color", .text "#666"), ("x", .null), ("y", .null), ("image", .null)]
  [.clear, .addNode (.text "A") (attributes "A" 5), .addNode (.text "B") (attributes "B" 20),
    .addEdge (.text "A") (.text "B")
      [("label", .text ""), ("size", .whole 1), ("color", .text "#999"), ("type", .text "curvedArrow")],
    .refresh]

theorem dangling_edge_is_not_shown :
    dangling.Syncable ∧ dangling.Keyed ∧ dangling.canvasCalls true = .ok danglingCalls ∧
      ∃ shown : Canvas, shown.drawn = true ∧ ∀ c : Canvas, c.performAll danglingCalls = some shown := by
  have hsync : dangling.Syncable := ⟨by decide, by decide, by decide⟩
  have hkeyed : dangling.Keyed := keyed_addAll _ _ _
  have hexplicit : dangling.canvasCalls true = .ok danglingCalls := rfl
  obtain ⟨nodes, edges, calls, hcalls, -, -, -, hshown, -⟩ := syncs_replace_what_is_shown dangling true hsync
  obtain rfl : calls = danglingCalls := Except.ok.inj (hcalls.symm.trans hexplicit)
  exact ⟨hsync, hkeyed, hexplicit, _, rfl, (hshown hkeyed).2⟩

end Graph
end NodeLink
