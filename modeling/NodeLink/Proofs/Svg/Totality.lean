import NodeLink.Proofs.Drawing.Fans
import NodeLink.Proofs.Icon.Totality
import NodeLink.Proofs.Svg.Written

/-!
# Documents that can be written

A scene of circles with sizes from a text, at points of doubles, with texts for names, captions and colours, and with
icons that are local, comes to a document: every measure can be written, and the numbers of a path can be read back
where the path is to be made shorter. So does a graph whose edges are not too many to be fanned out.
-/

namespace NodeLink

open Scalar Value

variable {style : Style Value} {text color : Json} {size scale angle : Value} {p : Point Value} {c : Curve Value}
  {b : Box Value} {w : Icon.World}

theorem Json.written?_succeeds {value : Json} (h : value.IsText) : Succeeds value.written? fun _ => True := by
  obtain ⟨s, rfl⟩ := h
  exact ⟨s.toList, rfl, trivial⟩

/-! ## Captions -/

namespace Caption

theorem fontAttrs_succeeds (hc : color.IsText) (hs : size.IsFontSize) :
    Succeeds (fontAttrs color size) fun _ => True := by
  apply (Json.written?_succeeds hc).bind
  intro fill _
  apply (compact_succeeds hs.fits).bind
  intro letters _
  exact .pure trivial

theorem turnedMarkup_succeeds (ht : text.IsText) (hc : color.IsText) (hs : size.IsFontSize) (ha : angle.IsDouble)
    (hp : p.IsDouble) : Succeeds (turnedMarkup text color size angle p) fun _ => True := by
  apply (compact_succeeds hp.x.fits).bind
  intro x _
  apply (compact_succeeds hp.y.fits).bind
  intro y _
  apply (compact_succeeds ha.fits).bind
  intro turn _
  apply (fontAttrs_succeeds hc hs).bind
  intro font _
  apply (Json.written?_succeeds ht).bind
  intro cs _
  exact .pure trivial

theorem followingMarkup_succeeds (ht : text.IsText) (hc : color.IsText) (hs : size.IsFontSize) (pathId : List Char) :
    Succeeds (followingMarkup text color pathId size) fun _ => True := by
  apply (fontAttrs_succeeds hc hs).bind
  intro font _
  apply (Json.written?_succeeds ht).bind
  intro cs _
  exact .pure trivial

theorem pathMarkup_succeeds (hc : c.IsDouble) (pathId : List Char) :
    Succeeds (pathMarkup pathId c) fun _ => True := by
  have houtline : Outline.IsDouble [.move c.start, .quadratic c.control c.finish] := by
    simp [Outline.IsDouble, PathCommand.IsDouble, PathCommand.points, hc.start, hc.control, hc.finish]
  apply Succeeds.bind (P := fun _ => True) (Path.shortened_succeeds houtline)
  intro data _
  exact .pure trivial

theorem draw_succeeds {placed : Placed Value} (hp : placed.Sound) (ht : text.IsText) (hc : color.IsText)
    (pathId : List Char) : Succeeds (draw placed text color pathId) fun d => d.around.Lies := by
  obtain ⟨size, lie, around⟩ := placed
  obtain ⟨hs, hlie, haround⟩ := hp
  cases lie with
  | turned angle =>
    apply (turnedMarkup_succeeds ht hc hs hlie haround.centre).bind
    intro m _
    exact .pure haround
  | along curve =>
    apply (pathMarkup_succeeds hlie pathId).bind
    intro path _
    apply (followingMarkup_succeeds ht hc hs pathId).bind
    intro m _
    exact .pure haround

theorem standingMarkup_succeeds (ht : text.IsText) (hs : size.IsFontSize) (hp : p.IsDouble) :
    Succeeds (standingMarkup text size p) fun _ => True := by
  apply (compact_succeeds hp.x.fits).bind
  intro x _
  apply (compact_succeeds hp.y.fits).bind
  intro y _
  apply (compact_succeeds hs.fits).bind
  intro letters _
  apply (Json.written?_succeeds ht).bind
  intro cs _
  exact .pure trivial

theorem nodeMarkup_succeeds {d : Disc Value} (hstyle : style.Usual) (hd : d.Sized) (ht : text.IsText)
    (hscale : scale.IsDouble) : Succeeds (nodeMarkup style d text scale) fun _ => True := by
  apply (ofNode?_succeeds hstyle hd hscale).bind
  rintro (_ | ⟨size, p⟩) hplace
  · exact .pure trivial
  · obtain ⟨hs, hp⟩ := hplace _ rfl
    apply (standingMarkup_succeeds ht hs hp).bind
    intro m _
    exact .pure trivial

end Caption

namespace Svg

/-! ## The layer of edges -/

theorem edgePath_succeeds {outline : Outline Value} (ho : outline.IsDouble) (hc : color.IsText) :
    Succeeds (edgePath style color outline) fun _ => True := by
  have hwritten : Succeeds (Path.text outline) fun _ => True := (Path.text_succeeds ho).mono fun _ _ => trivial
  have hfill (data : List Char) : Succeeds (do
      return Markup.empty "path".toList [.ofPlain "d" data, .ofText "fill" (← color.written?)] true) fun _ => True := by
    apply (Json.written?_succeeds hc).bind
    intro fill _
    exact .pure trivial
  exact .branch (fun _ => Path.shortened_succeeds ho) (fun _ => hwritten) fun data _ => hfill data

theorem edgeCaption?_succeeds {d : DrawnEdge Value} (hstyle : style.Usual) (hscale : scale.IsDouble) (hd : d.Sound) :
    Succeeds (edgeCaption? style scale d) fun caption => ∀ c ∈ caption, c.around.Lies := by
  apply (DrawnEdge.caption?_succeeds hstyle hscale hd).bind
  rintro (_ | placed) hplaced
  · exact .pure (by simp)
  · obtain ⟨hsound, hlabel⟩ := hplaced placed rfl
    apply (Caption.draw_succeeds hsound hlabel.isText hd.edge.color _).bind
    intro caption hcaption
    exact .pure (by simpa using hcaption)

theorem edgeParts_succeeds {d : DrawnEdge Value} (hstyle : style.Usual) (hscale : scale.IsDouble) (hd : d.Sound) :
    Succeeds (edgeParts style scale d) fun parts => ∀ c ∈ parts.captions, c.around.Lies := by
  apply (DrawnEdge.outline_succeeds hd).bind
  intro outline houtline
  refine .ite (fun _ => .pure (by simp)) fun _ => ?_
  apply (edgePath_succeeds houtline hd.edge.color).bind
  intro path _
  apply (edgeCaption?_succeeds hstyle hscale hd).bind
  intro caption hcaption
  exact .pure (by simpa using hcaption)

theorem edgeLayer_succeeds {drawn : List (DrawnEdge Value)} (hstyle : style.Usual) (hscale : scale.IsDouble)
    (hd : ∀ d ∈ drawn, d.Sound) :
    Succeeds (edgeLayer style drawn scale) fun edges => ∀ c ∈ edges.captions, c.around.Lies := by
  have hparts : Succeeds (drawn.mapM (edgeParts style scale)) fun parts =>
      ∀ part ∈ parts, ∀ c ∈ part.captions, c.around.Lies :=
    .mapM fun d hmem => edgeParts_succeeds hstyle hscale (hd d hmem)
  apply hparts.bind
  intro parts hcaptions
  refine .pure fun c hc => ?_
  obtain ⟨part, hpart, hmem⟩ := List.mem_flatMap.mp hc
  exact hcaptions part hpart c hmem

/-! ## The layer of nodes -/

variable {n : SceneNode Value}

theorem nodeIcon_succeeds (loaded : Icon.Loaded) (hn : n.Sound) (hicon : Icon.IsLocal n.icon) :
    Succeeds (nodeIcon loaded n) fun _ => True := by
  refine .ite (fun _ => ?_) fun _ => .pure trivial
  apply (Icon.symbol?_succeeds loaded hicon).bind
  intro symbol _
  exact Icon.markup_succeeds hn.disc hicon symbol

theorem nodeCircle_succeeds (hn : n.Sound) : Succeeds (nodeCircle n) fun _ => True := by
  apply (compact_succeeds hn.disc.centre.x.fits).bind
  intro x _
  apply (compact_succeeds hn.disc.centre.y.fits).bind
  intro y _
  apply (compact_succeeds hn.disc.radius.fits).bind
  intro r _
  apply (Json.written?_succeeds hn.fill).bind
  intro fill _
  exact .pure trivial

theorem nodeMarkup_succeeds (hstyle : style.Usual) (hscale : scale.IsDouble) (loaded : Icon.Loaded) (hn : n.Sound)
    (hicon : Icon.IsLocal n.icon) : Succeeds (nodeMarkup style loaded scale n) fun _ => True := by
  apply (Json.written?_succeeds hn.id).bind
  intro id _
  apply (nodeCircle_succeeds hn).bind
  intro circle _
  apply (nodeIcon_succeeds loaded hn hicon).bind
  intro icon _
  apply (Caption.nodeMarkup_succeeds hstyle hn.disc hn.label.isText hscale).bind
  intro caption _
  exact .pure trivial

theorem writeNodes_succeeds {s : Scene Value} (hstyle : style.Usual) (hscale : scale.IsDouble) (hs : s.Sound)
    (hicons : ∀ n ∈ s.nodes, Icon.IsLocal n.icon) : Succeeds (writeNodes style w {} s scale) fun _ => True := by
  have hloaded : Succeeds (loadIcons style w s) fun _ => True := by
    refine .ite (fun _ => Icon.loadAll_succeeds fun uri huri => ?_) fun _ => ⟨{}, rfl, trivial⟩
    obtain ⟨n, hn, rfl⟩ := List.mem_map.mp huri
    exact hicons n hn
  apply hloaded.bind
  intro loaded _
  have hnodes : Succeeds (s.nodes.mapM (nodeMarkup style loaded scale)) fun ms => ∀ m ∈ ms, True :=
    .mapM fun n hn => nodeMarkup_succeeds hstyle hscale loaded (hs.nodes n hn) (hicons n hn)
  apply Succeeds.bind (P := fun _ => True)
  · apply hnodes.bind
    intro ms _
    exact .pure trivial
  · intro layer _
    exact .pure trivial

/-! ## The document -/

theorem background_succeeds (hc : color.isGiven = true → color.IsText) (hb : b.IsDouble) :
    Succeeds (background color b) fun _ => True := by
  refine .ite (fun hvisible => ?_) fun _ => .pure trivial
  have hgiven : color.isGiven = true := by
    unfold isVisible at hvisible
    exact (Bool.and_eq_true_iff.mp hvisible).1
  apply (Icon.boxAttrs_succeeds hb).bind
  intro attrs _
  apply (Json.written?_succeeds (hc hgiven)).bind
  intro fill _
  exact .pure trivial

theorem viewBoxText_succeeds (hb : b.IsDouble) : Succeeds b.viewBoxText fun _ => True := by
  apply (compact_succeeds hb.x.fits).bind
  intro x _
  apply (compact_succeeds hb.y.fits).bind
  intro y _
  apply (compact_succeeds hb.width.fits).bind
  intro width _
  apply (compact_succeeds hb.height.fits).bind
  intro height _
  exact .pure trivial

theorem fits_getD {measure : Option Value} {v : Value} (h : ∀ m ∈ measure, m.Fits) (hv : v.IsDouble) :
    (measure.getD v).Fits := by
  cases measure with
  | none => exact hv.fits
  | some m => exact h m rfl

theorem document_succeeds (hstyle : style.Usual) (hb : b.IsDouble) (edges : EdgeLayer) (nodes : List Markup) :
    Succeeds (document style b edges nodes) fun _ => True := by
  apply (compact_succeeds (fits_getD hstyle.width hb.width)).bind
  intro width _
  apply (compact_succeeds (fits_getD hstyle.height hb.height)).bind
  intro height _
  apply (viewBoxText_succeeds hb).bind
  intro viewBox _
  apply (background_succeeds hstyle.background hb).bind
  intro behind _
  exact .pure trivial

theorem frame_succeeds {s : Scene Value} (hstyle : style.Usual) (hs : s.Sound) :
    Succeeds (frame style {} s (s.clipped style)) fun framed => framed.scale.IsDouble ∧ framed.box.IsDouble := by
  apply (Scene.drawn_gives hs).bind
  intro drawn hdrawn
  apply (Scene.extent_succeeds hs hdrawn).bind
  intro extent hextent
  apply (Extent.box_succeeds hextent hstyle).bind
  intro base hbase
  apply (Caption.viewportScale_succeeds hbase.width hbase.height hstyle.referenceSize).bind
  intro scale hscale
  apply (edgeLayer_succeeds hstyle hscale hdrawn).bind
  intro edges hedges
  have hcaptions : Succeeds ((edges.captions.map (·.around)).foldlM Extent.addDisc extent) Extent.IsDouble := by
    refine .foldlM hextent fun d hd e he => Extent.addDisc_succeeds he ?_
    obtain ⟨caption, hmem, rfl⟩ := List.mem_map.mp hd
    exact hedges caption hmem
  apply hcaptions.bind
  intro whole hwhole
  apply (Extent.box_succeeds hwhole hstyle).bind
  intro box hbox
  exact .pure ⟨hscale, hbox⟩

theorem renderScene_succeeds {s : Scene Value} (g : Graph) (hstyle : style.Usual) (hs : s.Sound)
    (hicons : ∀ n ∈ s.nodes, Icon.IsLocal n.icon) :
    Succeeds (renderScene g style w {} s (s.clipped style)) fun _ => True := by
  apply (frame_succeeds hstyle hs).bind
  rintro framed ⟨hscale, hbox⟩
  apply (writeNodes_succeeds hstyle hscale hs hicons).bind
  rintro ⟨nodes, loaded⟩ -
  apply (document_succeeds hstyle hbox framed.edges nodes).bind
  intro markup _
  exact .pure trivial

end Svg

/-! ## Graphs that can be drawn -/

/-- A node as a text brings it along, in a place of doubles or still without one. -/
structure Node.Drawable (n : Node) : Prop where
  label : n.label.IsLabel
  size : (Value.ofJson n.size).IsSize
  color : n.color.IsText
  icon : Icon.IsLocal n.icon
  x : (Node.coordinate n.x).IsDouble
  y : (Node.coordinate n.y).IsDouble

structure Edge.Drawable (e : Edge) : Prop where
  source : e.source.IsText
  target : e.target.IsText
  size : (Value.ofJson e.size).IsSize
  color : e.color.isGiven = true → e.color.IsText
  label : e.label.isGiven = true → e.label.IsLabel

/-- A graph as a text brings it along. -/
structure Graph.Drawable (g : Graph) : Prop where
  ids : ∀ slot ∈ g.slots, slot.id.IsText
  nodes : ∀ slot ∈ g.slots, slot.node.Drawable
  edges : ∀ e ∈ g.edges, e.Drawable
  few : g.edges.length < moderateLimit

theorem Json.isText_orElse {value other : Json} (h : value.isGiven = true → value.IsText) (ho : other.IsText) :
    (value.orElse other).IsText := by
  unfold Json.orElse
  split
  · exact h ‹_›
  · exact ho

namespace Graph

variable {g : Graph}

theorem checkEnds_ok {e : Edge} (he : e.Drawable) : e.checkEnds = .ok () := by
  obtain ⟨⟨s, hs⟩, ⟨t, ht⟩, -⟩ := he
  rw [Edge.checkEnds, hs, ht]
  rfl

theorem fanOutEdges_succeeds (hg : g.Drawable) : Succeeds g.fanOutEdges fun g' =>
    g'.slots = g.slots ∧ ∀ e ∈ g'.edges, e.Drawable ∧ e.curvature.IsDouble := by
  have hfan : Succeeds (fan Value g.edges) fun fan =>
      fan.map (·.edge) = g.edges ∧ ∀ f ∈ fan, f.curvature.IsDouble := by
    apply fan_succeeds fun e he => checkEnds_ok (hg.edges e he)
    intro i n hi hn
    have hfew : n < moderateLimit := lt_of_le_of_lt hn hg.few
    exact fanOut_succeeds (lt_trans hi hfew) hfew
  have hfanned : Succeeds (fanned g.edges) fun edges => ∀ e ∈ edges, e.Drawable ∧ e.curvature.IsDouble := by
    apply hfan.bind
    rintro fan ⟨hedges, hcurvatures⟩
    apply Succeeds.pure
    intro e he
    obtain ⟨f, hf, rfl⟩ := List.mem_map.mp he
    have hedge := hg.edges f.edge (hedges ▸ List.mem_map_of_mem hf)
    exact ⟨⟨hedge.source, hedge.target, hedge.size, hedge.color, hedge.label⟩, hcurvatures f hf⟩
  apply hfanned.bind
  intro edges hedges
  exact .pure ⟨rfl, hedges⟩

theorem sound_toScene {slot : Slot} (hid : slot.id.IsText) (h : slot.node.Drawable) : slot.toScene.Sound where
  disc := ⟨⟨h.x, h.y⟩, h.size⟩
  id := hid
  label := h.label
  fill := Json.isText_orElse (fun _ => h.color) ⟨_, rfl⟩

theorem sound_sceneEdge (hstyle : style.Usual) {e : Edge} (he : e.Drawable) (hcurvature : e.curvature.IsDouble)
    {source target : Node} (hs : source.Drawable) (ht : target.Drawable) (i : Nat) :
    (sceneEdge style i e source target).Sound where
  source := ⟨⟨hs.x, hs.y⟩, hs.size⟩
  target := ⟨⟨ht.x, ht.y⟩, ht.size⟩
  thickness := he.size
  curvature := hcurvature
  label := he.label
  color := Json.isText_orElse he.color (Json.isText_orElse hstyle.edgeColor ⟨_, rfl⟩)

theorem drawable_of_node? (hnodes : ∀ slot ∈ g.slots, slot.node.Drawable) {id : Json} {n : Node}
    (h : g.node? id = some n) : n.Drawable := by
  obtain ⟨key, -, hfind⟩ := Option.bind_eq_some_iff.mp h
  obtain ⟨slot, hslot, rfl⟩ := Option.map_eq_some_iff.mp hfind
  exact hnodes slot (List.mem_of_find?_eq_some hslot)

theorem sound_sceneEdgesFrom (hstyle : style.Usual) (hnodes : ∀ slot ∈ g.slots, slot.node.Drawable) {edges : List Edge}
    (hedges : ∀ e ∈ edges, e.Drawable ∧ e.curvature.IsDouble) (i : Nat) :
    ∀ s ∈ sceneEdgesFrom g style i edges, s.Sound := by
  induction edges generalizing i with
  | nil => simp [sceneEdgesFrom]
  | cons e rest ih =>
    obtain ⟨⟨he, hcurvature⟩, hrest⟩ := List.forall_mem_cons.mp hedges
    intro s hs
    rcases List.mem_append.mp hs with hs | hs
    · obtain ⟨source, hsource, hs⟩ := Option.bind_eq_some_iff.mp (Option.mem_toList.mp hs)
      obtain ⟨target, htarget, hs⟩ := Option.bind_eq_some_iff.mp hs
      cases hs
      exact sound_sceneEdge hstyle he hcurvature (drawable_of_node? hnodes hsource) (drawable_of_node? hnodes htarget) i
    · exact ih hrest (i + 1) s hs

theorem sound_scene (hstyle : style.Usual) (hids : ∀ slot ∈ g.slots, slot.id.IsText)
    (hnodes : ∀ slot ∈ g.slots, slot.node.Drawable) (hedges : ∀ e ∈ g.edges, e.Drawable ∧ e.curvature.IsDouble) :
    (g.scene style).Sound where
  nodes := by
    intro n hn
    obtain ⟨slot, hslot, rfl⟩ := List.mem_map.mp hn
    exact sound_toScene (hids slot hslot) (hnodes slot hslot)
  edges := sound_sceneEdgesFrom hstyle hnodes hedges 0

end Graph

/-- A drawable graph is rendered, whatever the world of icons holds. -/
theorem Svg.render_succeeds {g : Graph} {o : Options} (ho : o.style.Usual) (hg : g.Drawable) (icons : Icon.World) :
    Succeeds (render g o icons {}).result fun _ => True := by
  obtain ⟨g', hfan, hslots, hedges⟩ := Graph.fanOutEdges_succeeds hg
  have hids : ∀ slot ∈ g'.slots, slot.id.IsText := by
    rw [hslots]
    exact hg.ids
  have hnodes : ∀ slot ∈ g'.slots, slot.node.Drawable := by
    rw [hslots]
    exact hg.nodes
  have hicons : ∀ n ∈ (g'.scene o.style).nodes, Icon.IsLocal n.icon := by
    intro n hn
    obtain ⟨slot, hslot, rfl⟩ := List.mem_map.mp hn
    exact (hnodes slot hslot).icon
  obtain ⟨⟨drawn, more⟩, hdrawn, -⟩ := renderScene_succeeds (w := icons) g' ho
    (Graph.sound_scene ho hids hnodes hedges) hicons
  refine ⟨drawn, ?_, trivial⟩
  unfold render
  rw [hfan]
  dsimp only
  rw [hdrawn]

/-! ## Sizes that cannot be drawn -/

/-- The extent of a circle around a double reaches over a double of its radius. -/
theorem Stretch.fits_of_ofDisc {d : Disc Value} {s : Stretch Value} (hx : d.centre.x.IsDouble) {n : Int}
    (hn : d.radius = .whole n) (h : Stretch.ofDisc d = .ok s) : wholeFits n = true := by
  obtain ⟨x, hx⟩ := hx
  obtain ⟨left, hleft, -⟩ := bind_eq_ok h
  cases hfits : wholeFits n with
  | true => rfl
  | false =>
    have hfault : (d.centre.x - d.radius : Value) = .fault .tooLarge := by
      rw [hx, hn]
      change Value.sub (.real x) (.whole n) = _
      simp only [Value.sub, combine, withReal, hfits]
      rfl
    rw [hfault] at hleft
    cases hleft

/-- The size of a node that is rendered at a double has a double itself. -/
theorem Svg.fits_of_render {g : Graph} {o : Options} {icons : Icon.World} {drawn : Rendering}
    (h : (render g o icons {}).result = .ok drawn) {slot : Slot} (hslot : slot ∈ g.slots)
    (hx : (Node.coordinate slot.node.x).IsDouble) {n : Int} (hn : slot.node.size = .whole n) : wholeFits n = true := by
  obtain ⟨framed, written, m, hrendered⟩ := render_eq_ok h
  obtain ⟨edges, extent, base, -, hextent, -⟩ := frame_eq_ok hrendered.frames
  obtain ⟨bent, -, hgraph⟩ := bind_eq_ok hrendered.fanned
  obtain ⟨nodes, hnodes, -⟩ := bind_eq_ok hextent
  have hmem : slot.toScene ∈ (drawn.graph.scene o.style).nodes := by
    rw [← Except.ok.inj hgraph]
    exact List.mem_map_of_mem hslot
  obtain ⟨before, after, hstep⟩ := foldlM_takes hnodes hmem
  obtain ⟨mid, hdisc, -⟩ := bind_eq_ok hstep
  obtain ⟨stretch, hstretch, -⟩ := bind_eq_ok hdisc
  have hradius : slot.toScene.disc.radius = .whole n := congrArg Value.ofJson hn
  exact Stretch.fits_of_ofDisc hx hradius hstretch

end NodeLink
