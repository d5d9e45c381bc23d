import NodeLink.Proofs.Svg.Layers
import Mathlib.Data.List.Nodup

/-!
# Documents of graphs

Whatever texts a graph holds, its document is one element that nests as it should: the layers of edges, of their
captions and of nodes, with the texts of the graph in their places and nowhere else.
-/

namespace NodeLink

open Piece (tag block)
open Attr (gives_ofPlain gives_fixed)

namespace Svg

/-- The edges of a graph of which something is drawn. -/
def shownEdges (g : Graph) (o : Options) : Except Fault (List (DrawnEdge Value)) := do
  let g ← g.fanOutEdges
  let drawn ← Scene.drawn ((g.scene o.style).clipped o.style)
  return drawn.filter (hasOutline o.style)

/-- The scale at which captions are found large enough to be read. -/
def readingScale (g : Graph) (o : Options) : Except Fault Value := do
  let g ← g.fanOutEdges
  let box ← (g.scene o.style).baseBox o.style
  Caption.viewportScale box.width box.height o.style.referenceSize

/-- What a document consists of. -/
structure Parts where
  width : List Char
  height : List Char
  viewBox : List Char
  behind : List Piece
  paths : List Piece
  captions : List Piece
  ids : List (List Char)
  captionPaths : List Piece
  nodes : List Piece

namespace Parts

def layer (name : String) (ps : List Piece) : Piece := block "g" [("class", name.toList)] ps

/-- The definitions that captions need, if any. -/
def defs (parts : Parts) : List Piece :=
  if parts.captionPaths = [] then [] else [tag "defs" [] (Piece.onLines parts.captionPaths)]

/-- The document as one element. -/
def root (parts : Parts) : Piece :=
  block "svg"
    [("width", parts.width), ("height", parts.height), ("viewBox", parts.viewBox),
      ("xmlns", "http://www.w3.org/2000/svg".toList), ("xmlns:xlink", "http://www.w3.org/1999/xlink".toList),
      ("style", "font-family:Arial, sans-serif;".toList)]
    (parts.behind ++
      [layer "edges" parts.paths, layer "labels" (parts.defs ++ parts.captions), layer "nodes" parts.nodes])

end Parts

/-- The parts show the graph: the texts of its nodes and edges stand where they belong, nodes and edges in the
order of the graph, captions wherever they can be read, and the paths that captions follow have ids of their
own. -/
structure Depicts (g : Graph) (o : Options) (shown : List (DrawnEdge Value)) (scale : Value) (parts : Parts) :
    Prop where
  edges : shownEdges g o = .ok shown
  reading : readingScale g o = .ok scale
  behind : IsBackground (o.get "background") parts.behind
  ordered : (shown.map (·.edge.index)).Pairwise (· < ·)
  paths : List.Forall₂ (fun d p => ∃ e, g.edges[d.edge.index]? = some e ∧ IsEdgePath (edgeColor o.style e) p)
    shown parts.paths
  captions : List.Forall₂ (fun d p => ∃ e, g.edges[d.edge.index]? = some e ∧ e.label.isGiven = true ∧
    IsEdgeCaption e.label (edgeColor o.style e) parts.ids (captionPathId d.edge.index) p)
    (shown.filter (hasCaption o.style scale)) parts.captions
  captionPaths : List.Forall₂ IsCaptionPath parts.ids parts.captionPaths
  named : parts.ids.Sublist
    ((shown.filter (hasCaption o.style scale)).map fun d => captionPathId d.edge.index)
  distinct : parts.ids.Nodup
  nodes : List.Forall₂ (fun slot p =>
    IsNodeGroup slot.id (slot.node.color.orElse (.text "#cccccc")) slot.node.icon slot.node.label
      (Caption.isShown o.style scale slot.node.disc slot.node.label) p) g.slots parts.nodes

theorem captionPathId_injective : Function.Injective captionPathId := by
  intro i j h
  have hdigits := List.append_cancel_left h
  rw [← Text.digitsValue_digitsOf i, hdigits, Text.digitsValue_digitsOf]

theorem layer_gives (name : String) (hn : Plain name.toList) {ms : List Markup} {ps : List Piece}
    (h : List.Forall₂ Markup.Gives ms ps) : (layer name ms).Gives (Parts.layer name ps) := by
  have hclass := gives_fixed "class" name (.ofList (by decide)) hn
  exact Markup.gives_block "g" (.ofList (by decide)) (.cons hclass .nil) h

theorem captionDefs_gives {captions : List DrawnCaption} {parts : Parts}
    (h : List.Forall₂ Markup.Gives (captions.filterMap (·.defs)) parts.captionPaths) :
    List.Forall₂ Markup.Gives (captionDefs captions) parts.defs := by
  unfold captionDefs Parts.defs
  dsimp only
  generalize captions.filterMap (·.defs) = ms, parts.captionPaths = paths at h
  cases h with
  | nil => exact .nil
  | cons hm h => exact .cons (Markup.gives_onLines "defs" (.ofList (by decide)) (.cons hm h)) .nil

theorem document_gives (parts : Parts) {style : Style Value} {b : Box Value} {edges : EdgeLayer}
    {nodes : List Markup} {m : Markup} (h : document style b edges nodes = .ok m)
    (hpaths : List.Forall₂ Markup.Gives edges.paths parts.paths)
    (hdefs : List.Forall₂ Markup.Gives (edges.captions.filterMap (·.defs)) parts.captionPaths)
    (hcaptions : List.Forall₂ Markup.Gives (edges.captions.map (·.text)) parts.captions)
    (hnodes : List.Forall₂ Markup.Gives nodes parts.nodes) :
    ∃ width height viewBox behind, IsBackground style.background behind ∧
      m.Gives { parts with width, height, viewBox, behind }.root := by
  obtain ⟨width, height, viewBox, behind, hw, hh, hv, hb, rfl⟩ := document_eq_ok h
  obtain ⟨rect, hrect, hbackground⟩ := background_gives hb
  have hattrs := List.Forall₂.cons (gives_ofPlain "width" (.ofList (by decide)) hw) <|
    .cons (gives_ofPlain "height" (.ofList (by decide)) hh) <|
    .cons (gives_ofPlain "viewBox" (.ofList (by decide)) hv) <|
    .cons (gives_fixed "xmlns" "http://www.w3.org/2000/svg" (.ofList (by decide)) (.ofList (by decide))) <|
    .cons (gives_fixed "xmlns:xlink" "http://www.w3.org/1999/xlink"
      (.ofList (by decide)) (.ofList (by decide))) <|
    .cons (gives_fixed "style" "font-family:Arial, sans-serif;"
      (.ofList (by decide)) (.ofList (by decide))) .nil
  have hlabels := List.rel_append (captionDefs_gives hdefs) hcaptions
  have hlayers := List.Forall₂.cons (layer_gives "edges" (.ofList (by decide)) hpaths) <|
    .cons (layer_gives "labels" (.ofList (by decide)) hlabels) <|
    .cons (layer_gives "nodes" (.ofList (by decide)) hnodes) .nil
  have hroot := Markup.gives_block "svg" (.ofList (by decide)) hattrs (List.rel_append hrect hlayers)
  exact ⟨width, height, viewBox, rect, hbackground, hroot⟩

theorem writeNodes_gives {style : Style Value} {world : Icon.World} {s : Scene Value} {scale : Value}
    {nodes : List Markup} {loaded : Icon.Loaded} (icons : style.embedIcons = false)
    (h : writeNodes style world {} s scale = .ok (nodes, loaded)) :
    ∃ ps, List.Forall₂ Markup.Gives nodes ps ∧
      List.Forall₂ (fun n p => IsNodeGroup n.id n.fill n.icon n.label
        (Caption.isShown style scale n.disc n.label) p) s.nodes ps := by
  obtain ⟨ms, hload, hall, rfl⟩ := writeNodes_eq_ok h
  rw [loadIcons, icons] at hload
  cases hload
  change ∃ ps, List.Forall₂ Markup.Gives ms ps ∧ _
  generalize s.nodes = slots at hall ⊢
  clear * - hall
  induction hall with
  | nil => exact ⟨[], .nil, .nil⟩
  | cons hm _ ih =>
    obtain ⟨p, hp, hgroup⟩ := nodeMarkup_gives hm
    obtain ⟨ps, hps, hgroups⟩ := ih
    exact ⟨p :: ps, .cons hp hps, .cons hgroup hgroups⟩

theorem getElem?_of_forall₂ {α β : Type} {R : α → β → Prop} {as : List α} {bs : List β}
    (h : List.Forall₂ R as bs) {i : Nat} {b : β} (hb : bs[i]? = some b) : ∃ a, as[i]? = some a ∧ R a b := by
  induction h generalizing i with
  | nil => cases hb
  | cons hab _ ih =>
    cases i with
    | zero =>
      cases hb
      exact ⟨_, rfl, hab⟩
    | succ i => exact ih hb

/-- A drawn edge is an edge of the graph under its place. -/
theorem edge_of_drawn {g g' : Graph} {style : Style Value} (hbent : List.Forall₂ Edge.Bent g.edges g'.edges)
    {s : SceneEdge Value} (h : s ∈ (g'.scene style).edges) :
    ∃ e, g.edges[s.index]? = some e ∧ s.label = e.label ∧ s.color = edgeColor style e := by
  obtain ⟨-, e', he', hlabel, hcolor⟩ := (Graph.stems_sceneEdgesFrom g' 0 g'.edges).1 s h
  obtain ⟨e, he, hsame⟩ := getElem?_of_forall₂ hbent he'
  rw [hsame] at hlabel hcolor
  exact ⟨e, he, hlabel, hcolor⟩

/-- What is known of drawn edges, as a statement about the edges of the graph under their places. -/
theorem forall₂_places {g g' : Graph} {style : Style Value} (hbent : List.Forall₂ Edge.Bent g.edges g'.edges)
    {shown : List (DrawnEdge Value)} {ps : List Piece} {R : Json → Json → Nat → Piece → Prop}
    (hshown : ∀ d ∈ shown, d.edge ∈ (g'.scene style).edges)
    (h : List.Forall₂ (fun d p => R d.edge.label d.edge.color d.edge.index p) shown ps) :
    List.Forall₂ (fun d p => ∃ e, g.edges[d.edge.index]? = some e ∧
      R e.label (edgeColor style e) d.edge.index p) shown ps := by
  induction h with
  | nil => exact .nil
  | @cons d p shown ps hd _ ih =>
    obtain ⟨hmem, hrest⟩ := List.forall_mem_cons.mp hshown
    obtain ⟨e, he, hlabel, hcolor⟩ := edge_of_drawn hbent hmem
    rw [hlabel, hcolor] at hd
    exact .cons ⟨e, he, hd⟩ (ih hrest)

/-- The nodes of a scene are those of the graph, whose edges alone are fanned out. -/
theorem nodes_of_fanOutEdges {g g' : Graph} (h : g.fanOutEdges = .ok g') (style : Style Value) :
    (g'.scene style).nodes = g.slots.map Slot.toScene := by
  rw [← (Graph.fanOutEdges_eq_ok h).1]
  rfl

section

variable {g : Graph} {o : Options} {world : Icon.World} {drawn : Rendering} {framed : Framed}
  {written : List Markup × Icon.Loaded} {m : Markup}

/-- The edges that a drawing shows, and the scale at which its captions are read. -/
theorem RenderedFrom.shown (h : RenderedFrom g o world {} drawn framed written m) :
    ∃ edges, Scene.drawn ((drawn.graph.scene o.style).clipped o.style) = .ok edges ∧
      edgeLayer o.style edges framed.scale = .ok framed.edges ∧
      shownEdges g o = .ok (edges.filter (hasOutline o.style)) ∧ readingScale g o = .ok framed.scale := by
  obtain ⟨edges, extent, base, hdrawn, hextent, hbase, hscale, hlayer⟩ := frame_eq_ok h.frames
  refine ⟨edges, hdrawn, hlayer, ?_, ?_⟩
  · simp only [shownEdges, h.fanned, hdrawn, bind, Except.bind, pure, Except.pure]
  · simp only [readingScale, Scene.baseBox, h.fanned, hdrawn, hextent, hbase, hscale, bind, Except.bind]

theorem RenderedFrom.depicts (icons : o.isSet "embed_icons" = false)
    (h : RenderedFrom g o world {} drawn framed written m) :
    ∃ shown scale parts, m.Gives (Parts.root parts) ∧ Depicts g o shown scale parts := by
  obtain ⟨-, hbent⟩ := Graph.fanOutEdges_eq_ok h.fanned
  obtain ⟨edges, hdrawn, hlayer, hedges, hreading⟩ := h.shown
  obtain ⟨paths, hgives, hpaths, hcaptions⟩ := edgeLayer_gives hlayer
  obtain ⟨ids, texts, captionPaths, hgt, htexts, hids, hgp, hcp⟩ := captions_give hcaptions
  obtain ⟨groups, hgroups, hnodes⟩ := writeNodes_gives icons h.nodes
  rw [nodes_of_fanOutEdges h.fanned, List.forall₂_map_left_iff] at hnodes
  obtain ⟨hmem, hsorted⟩ := Scene.drawn_places hdrawn
  have hshown : ∀ d ∈ edges.filter (hasOutline o.style), d.edge ∈ (drawn.graph.scene o.style).edges :=
    fun d hd => hmem d (List.mem_of_mem_filter hd)
  have hordered := hsorted.sublist ((List.filter_sublist (p := hasOutline o.style)).map (·.edge.index))
  obtain ⟨width, height, viewBox, behind, hbackground, hm⟩ := document_gives
    { width := [], height := [], viewBox := [], behind := [], ids, paths, captionPaths, captions := texts
      nodes := groups } h.document hgives hgp hgt hgroups
  refine ⟨_, framed.scale, _, hm, hedges, hreading, hbackground, hordered, ?_, ?_, hcp, hids, ?_, hnodes⟩
  · exact forall₂_places (R := fun _ color _ p => IsEdgePath color p) hbent hshown hpaths
  · exact forall₂_places (R := fun label color i p => label.isGiven = true ∧
      IsEdgeCaption label color ids (captionPathId i) p) hbent
      (fun d hd => hshown d (List.mem_of_mem_filter hd)) htexts
  · -- Places go up, so no two paths are named for the same one.
    have hplaces := hordered.sublist ((List.filter_sublist (p := hasCaption o.style framed.scale)).map _)
    have hnames := hplaces.nodup.map captionPathId_injective
    rw [List.map_map] at hnames
    exact hnames.sublist hids

end

/-- No text of a graph breaks its document: the document is read as one element, with all that is in it, and
nothing in it is left unescaped. -/
theorem documents_hold_every_text {g : Graph} {o : Options} {world : Icon.World} {drawn : Rendering}
    (icons : o.isSet "embed_icons" = false) (h : (render g o world {}).result = .ok drawn) :
    ∃ shown scale parts, Piece.read drawn.svg.toList = some [Parts.root parts] ∧ parts.root.Clean ∧
      Depicts g o shown scale parts := by
  obtain ⟨framed, written, m, hrendered⟩ := render_eq_ok h
  obtain ⟨shown, scale, parts, hm, hparts⟩ := hrendered.depicts icons
  obtain ⟨hread, hclean⟩ := hm.read
  have htext : drawn.svg.toList = m.write := by rw [hrendered.svg, String.toList_ofList]
  exact ⟨shown, scale, parts, by rw [htext, hread], hclean, hparts⟩

/-- A graph whose texts all try to leave their places. -/
def hostileGraph : Graph where
  slots := [
    ⟨.text "a\"><b",
      { Node.ofId (.text "&lt;</text>") with icon := .text "x\" onload=\"y", x := .whole 0, y := .whole 0 }⟩,
    ⟨.text "b", { Node.ofId (.text "'") with color := .text "red\"/><g>", x := .whole 100, y := .whole 0 }⟩]
  edges := [{ id := .text "e", source := .text "a\"><b", target := .text "b", color := .text "</svg>" }]

def hostileOptions : Options :=
  ⟨Json.setField "embed_icons" (.bool false)
    (Json.setField "background" (.text "\"><script>") Options.defaults)⟩

theorem hostileGraph_stays_inside :
    hostileOptions.isSet "embed_icons" = false ∧
      ∃ drawn shown scale parts, (render hostileGraph hostileOptions {} {}).result = .ok drawn ∧
        Piece.read drawn.svg.toList = some [Parts.root parts] ∧ parts.root.Clean ∧
          Depicts hostileGraph hostileOptions shown scale parts := by
  have hicons : hostileOptions.isSet "embed_icons" = false := by decide +kernel
  have hdrawn : (render hostileGraph hostileOptions {} {}).result.toBool = true := by decide +kernel
  cases h : (render hostileGraph hostileOptions {} {}).result with
  | error fault =>
    rw [h] at hdrawn
    cases hdrawn
  | ok drawn =>
    obtain ⟨shown, scale, parts, hparts⟩ := documents_hold_every_text hicons h
    exact ⟨hicons, drawn, shown, scale, parts, rfl, hparts⟩

end Svg
end NodeLink
