import NodeLink.Proofs.Svg.Layers

/-!
# Rendering again

To render a graph is to fan out its edges first, which gives every edge a curvature. Nothing else of the graph
is written, a curvature that an edge had before is not read, and a coordinate that is not set stays so and
counts as zero. So a graph can be rendered and measured any number of times, and shows the same every time.
-/

namespace NodeLink

/-- The value, or zero in place of one that is not set. -/
def Json.orZero (value : Json) : Json := if value.isNull then .real 0.0 else value

def Node.pinned (n : Node) : Node := { n with x := n.x.orZero, y := n.y.orZero }

def Slot.pinned (slot : Slot) : Slot := { slot with node := slot.node.pinned }

namespace Edge

theorem Bent.refl (e : Edge) : Bent e e := rfl

theorem Bent.eq {e e' : Edge} (h : Bent e e') : ∃ curvature, e' = { e with curvature } := ⟨e'.curvature, h⟩

theorem Bent.trans {a b c : Edge} (hab : Bent a b) (hbc : Bent b c) : Bent a c := by
  obtain ⟨curvature, rfl⟩ := hab.eq
  exact hbc

theorem Bent.pair {e e' : Edge} (h : Bent e e') : e'.pair = e.pair := by
  obtain ⟨curvature, rfl⟩ := h.eq
  rfl

theorem Bent.checkEnds {e e' : Edge} (h : Bent e e') : e'.checkEnds = e.checkEnds := by
  obtain ⟨curvature, rfl⟩ := h.eq
  rfl

end Edge

namespace Graph

/-- The graph with zero in place of every coordinate that is not set. -/
def pinned (g : Graph) : Graph := { g with slots := g.slots.map Slot.pinned }

/-- Only the curvatures of edges tell the two graphs apart. -/
structure SameButCurvatures (g g' : Graph) : Prop where
  title : g'.title = g.title
  slots : g'.slots = g.slots
  edges : List.Forall₂ Edge.Bent g.edges g'.edges

theorem SameButCurvatures.refl (g : Graph) : SameButCurvatures g g :=
  ⟨rfl, rfl, List.forall₂_same.mpr fun e _ => Edge.Bent.refl e⟩

theorem forall₂_bent_trans {edges edges' edges'' : List Edge} (h : List.Forall₂ Edge.Bent edges edges')
    (h' : List.Forall₂ Edge.Bent edges' edges'') : List.Forall₂ Edge.Bent edges edges'' := by
  induction h generalizing edges'' with
  | nil =>
    cases h'
    exact .nil
  | cons hab _ ih =>
    cases h' with
    | cons hbc hrest => exact .cons (hab.trans hbc) (ih hrest)

theorem SameButCurvatures.trans {g g' g'' : Graph} (h : SameButCurvatures g g')
    (h' : SameButCurvatures g' g'') : SameButCurvatures g g'' :=
  ⟨h'.title.trans h.title, h'.slots.trans h.slots, forall₂_bent_trans h.edges h'.edges⟩

/-! ### Fanning out the edges -/

theorem sameButCurvatures_fanOutEdges {g d : Graph} (h : g.fanOutEdges = .ok d) : SameButCurvatures g d := by
  obtain ⟨hslots, hedges⟩ := fanOutEdges_eq_ok h
  obtain ⟨edges, -, hd⟩ := bind_eq_ok h
  cases hd
  exact ⟨rfl, hslots, hedges⟩

theorem pairs_bent {edges edges' : List Edge} (h : List.Forall₂ Edge.Bent edges edges') :
    edges'.map Edge.pair = edges.map Edge.pair := by
  induction h with
  | nil => rfl
  | cons he _ ih => rw [List.map_cons, List.map_cons, he.pair, ih]

theorem bend_bent {edges edges' : List Edge} (h : List.Forall₂ Edge.Bent edges edges') (cs : List Value) :
    (edges'.zipWith FannedEdge.mk cs).map FannedEdge.bend = (edges.zipWith FannedEdge.mk cs).map FannedEdge.bend := by
  induction h generalizing cs with
  | nil => rfl
  | cons he _ ih =>
    cases cs with
    | nil => rfl
    | cons c cs =>
      obtain ⟨curvature, rfl⟩ := he.eq
      simp only [List.zipWith_cons_cons, List.map_cons, ih]
      rfl

theorem checkEnds_bent {edges edges' : List Edge} (h : List.Forall₂ Edge.Bent edges edges') :
    edges'.forM Edge.checkEnds = edges.forM Edge.checkEnds := by
  induction h with
  | nil => rfl
  | cons he _ ih =>
    simp only [List.forM_eq_forM, List.forM_cons, he.checkEnds] at ih ⊢
    rw [ih]

/-- The curvatures of before are not read. -/
theorem fanOutEdges_bent {g g' : Graph} (h : SameButCurvatures g g') : g'.fanOutEdges = g.fanOutEdges := by
  have hfanned : fanned g'.edges = fanned g.edges := by
    simp only [fanned, fan, bind_assoc, pure_bind, checkEnds_bent h.edges, pairs_bent h.edges, bend_bent h.edges]
  simp only [fanOutEdges, hfanned, h.title, h.slots]

theorem fanOutEdges_pinned (g : Graph) : g.pinned.fanOutEdges = pinned <$> g.fanOutEdges := by
  change (fanned g.edges >>= _) = pinned <$> (fanned g.edges >>= _)
  cases fanned g.edges with
  | error fault => rfl
  | ok edges => rfl

/-! ### The scene of a graph whose nodes are all placed -/

theorem coordinate_orZero (value : Json) : Node.coordinate value.orZero = Node.coordinate value := by
  cases value <;> rfl

theorem disc_pinned (n : Node) : n.pinned.disc = n.disc := by
  simp only [Node.disc, Node.pinned, coordinate_orZero]

theorem toScene_pinned (slot : Slot) : slot.pinned.toScene = slot.toScene := by
  have hdisc : slot.pinned.node.disc = slot.node.disc := disc_pinned slot.node
  simp only [Slot.toScene, hdisc]
  rfl

theorem find?_pinned (g : Graph) (key : Key) : g.pinned.find? key = (g.find? key).map Node.pinned := by
  simp only [find?, slotOf?, pinned, List.find?_map, Option.map_map]
  rfl

theorem node?_pinned (g : Graph) (id : Json) : g.pinned.node? id = (g.node? id).map Node.pinned := by
  simp only [node?, find?_pinned]
  cases id.key? with
  | none => rfl
  | some key => rfl

theorem sceneEdge?_pinned (g : Graph) (style : Style Value) (i : Nat) (e : Edge) :
    g.pinned.sceneEdge? style i e = g.sceneEdge? style i e := by
  simp only [sceneEdge?, node?_pinned]
  cases g.node? e.source with
  | none => rfl
  | some source =>
    cases g.node? e.target with
    | none => rfl
    | some target =>
      change some (sceneEdge style i e source.pinned target.pinned) = some (sceneEdge style i e source target)
      simp only [sceneEdge, disc_pinned]

theorem sceneEdgesFrom_pinned (g : Graph) (style : Style Value) (i : Nat) (edges : List Edge) :
    sceneEdgesFrom g.pinned style i edges = sceneEdgesFrom g style i edges := by
  induction edges generalizing i with
  | nil => rfl
  | cons e rest ih => simp only [sceneEdgesFrom, sceneEdge?_pinned, ih]

theorem scene_pinned (g : Graph) (style : Style Value) : g.pinned.scene style = g.scene style := by
  have hnodes : g.pinned.slots.map Slot.toScene = g.slots.map Slot.toScene := by
    simp only [pinned, List.map_map, Function.comp_def, toScene_pinned]
  have hedges := sceneEdgesFrom_pinned g style 0 g.edges
  exact congrArg₂ Scene.mk hnodes hedges

end Graph

namespace Svg

/-- What is seen of a rendering: the document and the web addresses asked, or the fault that prevented it,
and the notices. -/
def Outcome.seen (outcome : Outcome) : Except Fault (String × List String) × List Notice :=
  (outcome.result.map fun drawn => (drawn.svg, drawn.requests), outcome.notices)

/-- What a graph can be used for: to render it, or to find its box. -/
inductive Use where
  | render (o : Options) (world : Icon.World) (renderers : Renderers)
  | measure (o : Options)

/-- The graph as it is left. -/
def Use.leave (g : Graph) : Use → Graph
  | .render o world renderers => (Svg.render g o world renderers).graph
  | .measure o => (g.measure o).graph

variable {g g' : Graph} {o : Options} {world : Icon.World} {renderers : Renderers}

/-- The graph is only handed on to the rendering. -/
theorem renderScene_graph (g g' : Graph) (style : Style Value) (world : Icon.World) (renderers : Renderers)
    (s : Scene Value) (clipped : List (ClippedEdge Value)) :
    renderScene g' style world renderers s clipped =
      (fun (drawn, notices) => ({ drawn with graph := g' }, notices)) <$>
        renderScene g style world renderers s clipped := by
  unfold renderScene
  cases frame style renderers s clipped with
  | error fault => rfl
  | ok framed =>
    change (writeNodes style world renderers s framed.scale >>= _) =
      _ <$> (writeNodes style world renderers s framed.scale >>= _)
    cases writeNodes style world renderers s framed.scale with
    | error fault => rfl
    | ok written =>
      obtain ⟨nodes, loaded⟩ := written
      change (document style framed.box framed.edges nodes >>= _) =
        _ <$> (document style framed.box framed.edges nodes >>= _)
      cases document style framed.box framed.edges nodes with
      | error fault => rfl
      | ok markup => rfl

/-- Two graphs that show the same scene once their edges are fanned out are seen alike. -/
theorem seen_congr {f : Graph → Graph} (hfan : g'.fanOutEdges = f <$> g.fanOutEdges)
    (hscene : ∀ d style, (f d).scene style = d.scene style) :
    (render g' o world renderers).seen = (render g o world renderers).seen := by
  unfold render
  rw [hfan]
  cases g.fanOutEdges with
  | error fault => rfl
  | ok d =>
    have hgraph := renderScene_graph d (f d) o.style world renderers (d.scene o.style)
      ((d.scene o.style).clipped o.style)
    simp only [Functor.map, Except.map, hscene] at hgraph ⊢
    rw [hgraph]
    cases renderScene d o.style world renderers (d.scene o.style) ((d.scene o.style).clipped o.style) with
    | error fault => rfl
    | ok drawing => rfl

theorem seen_bent (h : g.SameButCurvatures g') :
    (render g' o world renderers).seen = (render g o world renderers).seen := by
  apply seen_congr (f := id) _ fun _ _ => rfl
  rw [Graph.fanOutEdges_bent h, id_map]

theorem seen_pinned : (render g.pinned o world renderers).seen = (render g o world renderers).seen :=
  seen_congr (Graph.fanOutEdges_pinned g) Graph.scene_pinned

/-- A rendering writes nothing but curvatures, whether or not a document comes of it. -/
theorem sameButCurvatures_render : g.SameButCurvatures (render g o world renderers).graph := by
  unfold render
  cases hfan : g.fanOutEdges with
  | error fault => exact .refl g
  | ok d =>
    have hsame := Graph.sameButCurvatures_fanOutEdges hfan
    dsimp only
    cases renderScene d o.style world renderers (d.scene o.style) ((d.scene o.style).clipped o.style) with
    | error fault => exact hsame
    | ok drawing => exact hsame

theorem sameButCurvatures_measure : g.SameButCurvatures (g.measure o).graph := by
  unfold Graph.measure
  cases hfan : g.fanOutEdges with
  | error fault => exact .refl g
  | ok d => exact Graph.sameButCurvatures_fanOutEdges hfan

theorem sameButCurvatures_uses (uses : List Use) : g.SameButCurvatures (uses.foldl Use.leave g) := by
  induction uses generalizing g with
  | nil => exact .refl g
  | cons use uses ih =>
    have hfirst : g.SameButCurvatures (Use.leave g use) := by
      cases use with
      | render o world renderers => exact sameButCurvatures_render
      | measure o => exact sameButCurvatures_measure
    exact hfirst.trans ih

/-- The drawing that is handed out holds the graph as it is left. -/
theorem graph_of_render {drawn : Rendering} (h : (render g o world renderers).result = .ok drawn) :
    drawn.graph = (render g o world renderers).graph := by
  obtain ⟨framed, written, m, hrendered⟩ := render_eq_ok h
  exact hrendered.left.symm

/-- Rendering is repeatable. It writes nothing of a graph but the curvatures of its edges, also where no
document comes of it. What is seen hangs neither on the curvatures that were there before nor on whether a
coordinate is zero or not set, and it is the same after the graph has been rendered and measured any number of
times. -/
theorem renderings_are_repeatable (g : Graph) (o : Options) (world : Icon.World) (renderers : Renderers) :
    g.SameButCurvatures (render g o world renderers).graph ∧
      (∀ drawn, (render g o world renderers).result = .ok drawn →
        drawn.graph = (render g o world renderers).graph) ∧
      (∀ g', g.SameButCurvatures g' →
        (render g' o world renderers).seen = (render g o world renderers).seen) ∧
      (render g.pinned o world renderers).seen = (render g o world renderers).seen ∧
      ∀ uses : List Use,
        (render (uses.foldl Use.leave g) o world renderers).seen = (render g o world renderers).seen := by
  refine ⟨sameButCurvatures_render, fun drawn => graph_of_render, fun g' => seen_bent, seen_pinned, ?_⟩
  intro uses
  exact seen_bent (sameButCurvatures_uses uses)

/-- Edges with a curvature left over: one that is drawn, two from a node to itself, and one to no node. The
second node has one coordinate only. -/
def wornGraph (curvature : Value) : Graph where
  slots := [
    ⟨.text "A", { Node.ofId (.text "A") with x := .whole 0, y := .whole 0 }⟩,
    ⟨.text "B", { Node.ofId (.text "B") with x := .whole 100 }⟩]
  edges := [
    { id := .text "e", source := .text "A", target := .text "B", curvature },
    { id := .text "f", source := .text "B", target := .text "B", curvature },
    { id := .text "g", source := .text "B", target := .text "B", curvature },
    { id := .text "h", source := .text "A", target := .text "C", curvature }]

theorem wornGraph_looks_new :
    (wornGraph (.real 0.0)).SameButCurvatures (wornGraph (.whole 7)) ∧
      ∃ drawn, (render (wornGraph (.real 0.0)) {} {} {}).result = .ok drawn ∧
        drawn.graph = (render (wornGraph (.real 0.0)) {} {} {}).graph ∧
        (render (wornGraph (.whole 7)) {} {} {}).seen =
          (.ok (drawn.svg, drawn.requests), (render (wornGraph (.real 0.0)) {} {} {}).notices) := by
  have hsame : (wornGraph (.real 0.0)).SameButCurvatures (wornGraph (.whole 7)) :=
    ⟨rfl, rfl, .cons rfl (.cons rfl (.cons rfl (.cons rfl .nil)))⟩
  obtain ⟨-, hgraph, hcurvature, -, -⟩ := renderings_are_repeatable (wornGraph (.real 0.0)) {} {} {}
  have hany : (render (wornGraph (.real 0.0)) {} {} {}).result.toOption.any (fun _ => true) = true := by
    decide +kernel
  obtain ⟨drawn, hdrawn, -⟩ := Succeeds.of_any hany
  have hseen : (render (wornGraph (.real 0.0)) {} {} {}).seen =
      (.ok (drawn.svg, drawn.requests), (render (wornGraph (.real 0.0)) {} {} {}).notices) := by
    rw [Outcome.seen, hdrawn]
    rfl
  exact ⟨hsame, drawn, hdrawn, hgraph drawn hdrawn, (hcurvature _ hsame).trans hseen⟩

end Svg
end NodeLink
