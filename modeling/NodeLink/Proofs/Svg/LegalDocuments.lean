import NodeLink.Proofs.Graph.DotDocuments
import NodeLink.Proofs.Pipeline
import NodeLink.Proofs.Svg.Characters

/-!
# Legal documents

All characters of a document have a property of ordinary characters if and only if the texts that the document shows
have it. One such property is to be allowed in XML 1.0: nothing of a diagram text is checked for it, so that a document
is legal exactly where the names, colours and captions that it shows are.
-/

namespace NodeLink

open Markup (keeps_element)
open Attr (keeps_cons_plain)
open Value (moderateLimit)

variable {P : Char → Prop}

namespace Svg

/-- The texts of an edge that are shown have the property. -/
structure EdgeKeeps (P : Char → Prop) (style : Style Value) (scale : Value) (d : DrawnEdge Value) : Prop where
  color : d.edge.color.Keeps P
  label : hasCaption style scale d = true → d.edge.label.Keeps P

/-- Paths and captions of a layer of edges. -/
structure EdgeLayer.Keeps (P : Char → Prop) (layer : EdgeLayer) : Prop where
  paths : ∀ m ∈ layer.paths, m.Keeps P
  captions : ∀ c ∈ layer.captions, c.Keeps P

variable {style : Style Value} {scale : Value}

theorem edgeCaption?_keeps (hP : Ordinary P) {d : DrawnEdge Value} {c? : Option DrawnCaption}
    (h : edgeCaption? style scale d = .ok c?) :
    (∀ c ∈ c?, c.Keeps P) ↔ (hasCaption style scale d = true → d.edge.color.Keeps P ∧ d.edge.label.Keeps P) := by
  obtain ⟨hplaced, rfl⟩ | ⟨placed, c, hplaced, hc, rfl⟩ := edgeCaption?_eq_ok h
  · rw [hasCaption, hplaced]
    exact iff_of_true (fun _ hc => absurd hc (Option.not_mem_none _)) fun hshown => Bool.noConfusion hshown
  · rw [hasCaption, hplaced]
    have hone : (∀ c' ∈ some c, c'.Keeps P) ↔ c.Keeps P := by simp
    exact (hone.trans (Caption.draw_keeps hP (plain_captionPathId _) hc)).trans (imp_iff_right rfl).symm

theorem edgeParts_keeps (hP : Ordinary P) {d : DrawnEdge Value} {layer : EdgeLayer}
    (h : edgeParts style scale d = .ok layer) :
    layer.Keeps P ↔ (hasOutline style d = true → EdgeKeeps P style scale d) := by
  obtain ⟨outline, ho, ⟨hempty, rfl⟩ | ⟨hsome, m, c?, hm, hc, rfl⟩⟩ := edgeParts_eq_ok h
  · have hnone : hasOutline style d = false := by simp [hasOutline, ho, hempty]
    rw [hnone]
    exact iff_of_true ⟨List.forall_mem_nil _, List.forall_mem_nil _⟩ fun hshown => Bool.noConfusion hshown
  · have houtline : hasOutline style d = true := by simp [hasOutline, ho, hsome]
    have hpath : (∀ m' ∈ [m], m'.Keeps P) ↔ d.edge.color.Keeps P :=
      List.forall_mem_singleton.trans (edgePath_keeps hP hm)
    have hcaption : (∀ c ∈ c?.toList, c.Keeps P) ↔
        (hasCaption style scale d = true → d.edge.color.Keeps P ∧ d.edge.label.Keeps P) := by
      simpa using edgeCaption?_keeps hP hc
    rw [houtline, imp_iff_right rfl]
    constructor
    · intro h
      exact ⟨hpath.mp h.paths, fun hshown => (hcaption.mp h.captions hshown).2⟩
    · intro h
      exact ⟨hpath.mpr h.color, hcaption.mpr fun hshown => ⟨h.color, h.label hshown⟩⟩

theorem edgeLayer_keeps (hP : Ordinary P) {drawn : List (DrawnEdge Value)} {layer : EdgeLayer}
    (h : edgeLayer style drawn scale = .ok layer) :
    layer.Keeps P ↔ ∀ d ∈ drawn.filter (hasOutline style), EdgeKeeps P style scale d := by
  obtain ⟨parts, hparts, h⟩ := bind_eq_ok h
  cases h
  have hall := mapM_eq_ok hparts
  have hlayer : EdgeLayer.Keeps P ⟨parts.flatMap (·.paths), parts.flatMap (·.captions)⟩ ↔ ∀ part ∈ parts, part.Keeps P := by
    constructor
    · intro h part hpart
      exact ⟨fun m hm => h.paths m (List.mem_flatMap.mpr ⟨part, hpart, hm⟩),
        fun c hc => h.captions c (List.mem_flatMap.mpr ⟨part, hpart, hc⟩)⟩
    · intro h
      constructor
      · intro m hm
        obtain ⟨part, hpart, hm⟩ := List.mem_flatMap.mp hm
        exact (h part hpart).paths m hm
      · intro c hc
        obtain ⟨part, hpart, hc⟩ := List.mem_flatMap.mp hc
        exact (h part hpart).captions c hc
  rw [hlayer]
  clear * - hP hall
  induction hall with
  | nil => exact iff_of_true (List.forall_mem_nil _) (List.forall_mem_nil _)
  | @cons d part drawn parts hd _ ih =>
    refine List.forall_mem_cons.trans ((and_congr (edgeParts_keeps hP hd) ih).trans ?_)
    by_cases houtline : hasOutline style d = true
    · rw [List.filter_cons_of_pos houtline, imp_iff_right houtline, List.forall_mem_cons]
    · rw [List.filter_cons_of_neg houtline]
      exact and_iff_right fun h => absurd h houtline

theorem captionDefs_keeps (hP : Ordinary P) (captions : List DrawnCaption) :
    (∀ m ∈ captionDefs captions, m.Keeps P) ↔ ∀ c ∈ captions, ∀ m ∈ c.defs, m.Keeps P := by
  have hdefs : (∀ m ∈ captions.filterMap (·.defs), m.Keeps P) ↔ ∀ c ∈ captions, ∀ m ∈ c.defs, m.Keeps P := by
    simp only [List.mem_filterMap, Option.mem_def]
    exact ⟨fun h c hc m hm => h m ⟨c, hc, hm⟩, fun h m ⟨c, hc, hm⟩ => h c hc m hm⟩
  rw [← hdefs]
  unfold captionDefs
  dsimp only
  split
  · rename_i hempty
    rw [List.isEmpty_iff.mp hempty]
  · refine List.forall_mem_singleton.trans ((keeps_element hP (.ofList (by decide)) _ _).trans ?_)
    rw [Markup.keeps_onLines hP]
    exact and_iff_right nofun

theorem layer_keeps (hP : Ordinary P) (name : String) (hn : Plain name.toList) (ms : List Markup) :
    (layer name ms).Keeps P ↔ ∀ m ∈ ms, m.Keeps P := by
  refine (Markup.keeps_block hP (.ofList (by decide)) _ _).trans (and_iff_right ?_)
  exact (keeps_cons_plain hP "class" (.ofList (by decide)) hn).mpr nofun

theorem document_keeps (hP : Ordinary P) {b : Box Value} {edges : EdgeLayer} {nodes : List Markup} {m : Markup}
    (h : document style b edges nodes = .ok m) :
    m.Keeps P ↔ (isVisible style.background = true → style.background.Keeps P) ∧ edges.Keeps P ∧
      ∀ m ∈ nodes, m.Keeps P := by
  obtain ⟨width, height, viewBox, behind, hw, hh, hv, hb, rfl⟩ := document_eq_ok h
  have hcaptions : (∀ m ∈ captionDefs edges.captions ++ edges.captions.map (·.text), m.Keeps P) ↔
      ∀ c ∈ edges.captions, c.Keeps P := by
    rw [List.forall_mem_append, captionDefs_keeps hP, List.forall_mem_map]
    exact ⟨fun h c hc => ⟨h.2 c hc, h.1 c hc⟩, fun h => ⟨fun c hc => (h c hc).2, fun c hc => (h c hc).1⟩⟩
  refine (Markup.keeps_block hP (.ofList (by decide)) _ _).trans ?_
  refine (and_iff_right ?_).trans ?_
  · refine (keeps_cons_plain hP "width" (.ofList (by decide)) hw).mpr ?_
    refine (keeps_cons_plain hP "height" (.ofList (by decide)) hh).mpr ?_
    refine (keeps_cons_plain hP "viewBox" (.ofList (by decide)) hv).mpr ?_
    refine (keeps_cons_plain hP "xmlns" (.ofList (by decide)) (.ofList (by decide))).mpr ?_
    refine (keeps_cons_plain hP "xmlns:xlink" (.ofList (by decide)) (.ofList (by decide))).mpr ?_
    exact (keeps_cons_plain hP "style" (.ofList (by decide)) (.ofList (by decide))).mpr nofun
  · rw [List.forall_mem_append, background_keeps hP hb, List.forall_mem_cons, List.forall_mem_cons,
      List.forall_mem_singleton, layer_keeps hP "edges" (.ofList (by decide)),
      layer_keeps hP "labels" (.ofList (by decide)), layer_keeps hP "nodes" (.ofList (by decide)), hcaptions]
    exact and_congr_right' ⟨fun h => ⟨⟨h.1, h.2.1⟩, h.2.2⟩, fun h => ⟨h.1.paths, h.1.captions, h.2⟩⟩

theorem writeNodes_keeps (hP : Ordinary P) {world : Icon.World} {s : Scene Value} {nodes : List Markup}
    {loaded : Icon.Loaded} (icons : style.embedIcons = false)
    (h : writeNodes style world {} s scale = .ok (nodes, loaded)) :
    (∀ m ∈ nodes, m.Keeps P) ↔ ∀ n ∈ s.nodes, NodeKeeps P style scale n := by
  obtain ⟨ms, hload, hall, rfl⟩ := writeNodes_eq_ok h
  rw [loadIcons, icons] at hload
  cases hload
  change (∀ m ∈ ms, m.Keeps P) ↔ _
  generalize s.nodes = slots at hall ⊢
  clear * - hP hall
  induction hall with
  | nil => exact iff_of_true (List.forall_mem_nil _) (List.forall_mem_nil _)
  | cons hm _ ih => rw [List.forall_mem_cons, List.forall_mem_cons, nodeMarkup_keeps hP hm, ih]

/-- The texts that a drawing shows have the property. -/
structure ShownKeep (P : Char → Prop) (g : Graph) (o : Options) (shown : List (DrawnEdge Value)) (scale : Value) :
    Prop where
  background : isVisible (o.get "background") = true → (o.get "background").Keeps P
  edges : ∀ d ∈ shown, EdgeKeeps P o.style scale d
  nodes : ∀ slot ∈ g.slots, NodeKeeps P o.style scale slot.toScene

/-- A drawn edge has the caption and the colour of its edge in the graph. -/
def FromEdges (g : Graph) (o : Options) (shown : List (DrawnEdge Value)) : Prop :=
  ∀ d ∈ shown, ∃ e, g.edges[d.edge.index]? = some e ∧ d.edge.label = e.label ∧ d.edge.color = edgeColor o.style e

/-- All characters of a document have a property if the texts that it shows have it, and only then. -/
theorem render_keeps (hP : Ordinary P) {g : Graph} {o : Options} {world : Icon.World} {drawn : Rendering}
    (icons : o.isSet "embed_icons" = false) (h : (render g o world {}).result = .ok drawn) :
    ∃ shown scale, shownEdges g o = .ok shown ∧ readingScale g o = .ok scale ∧ FromEdges g o shown ∧
      ((∀ c ∈ drawn.svg.toList, P c) ↔ ShownKeep P g o shown scale) := by
  obtain ⟨framed, ⟨nodes, loaded⟩, m, hrendered⟩ := render_eq_ok h
  obtain ⟨-, hbent⟩ := Graph.fanOutEdges_eq_ok hrendered.fanned
  obtain ⟨edges, hdrawn, hlayer, hshown, hreading⟩ := hrendered.shown
  refine ⟨edges.filter (hasOutline o.style), framed.scale, hshown, hreading, ?_, ?_⟩
  · intro d hd
    exact edge_of_drawn hbent ((Scene.drawn_places hdrawn).1 d (List.mem_of_mem_filter hd))
  · rw [hrendered.svg, String.toList_ofList]
    refine (document_keeps hP hrendered.document).trans ?_
    rw [edgeLayer_keeps hP hlayer, writeNodes_keeps hP icons hrendered.nodes,
      nodes_of_fanOutEdges hrendered.fanned, List.forall_mem_map]
    exact ⟨fun h => ⟨h.1, h.2.1, h.2.2⟩, fun h => ⟨h.background, h.edges, h.nodes⟩⟩

end Svg

/-! ### Graphs of diagram texts -/

theorem Json.keeps_plain (hP : Ordinary P) {s : String} (h : NodeLink.Plain s.toList) :
    (Json.text s).Keeps P := hP.plain h

theorem Json.keeps_orElse {s : String} {other : Json} (hother : other.Keeps P) :
    ((Json.text s).orElse other).Keeps P ↔ (Json.text s).Keeps P := by
  unfold Json.orElse
  split
  · exact Iff.rfl
  · rename_i hempty
    have hs : s = "" := by simpa [Json.isGiven] using hempty
    rw [hs]
    exact iff_of_true hother fun _ hc => absurd hc List.not_mem_nil

namespace Source

theorem plain_keywordIcons : ∀ uri ∈ Svg.keywordIcons, NodeLink.Plain uri.toList := by
  decide +kernel

/-- A node of a text is known by its id, which is its caption as well, and its icon comes with a keyword. -/
structure Shows (P : Char → Prop) (slot : Slot) : Prop where
  id : slot.id = slot.node.id
  label : slot.node.label = slot.node.id
  color : ∃ color, slot.node.color = .text color
  icon : slot.node.icon.isGiven = true → slot.node.icon.Keeps P

theorem shows_of_parse (hP : Ordinary P) {text : List Char} {g : Graph} (h : parse text = .ok g) :
    ∀ slot ∈ g.slots, Shows P slot := by
  obtain ⟨D, hread, hmeans⟩ := means_of_parse h
  intro slot hslot
  rw [hmeans.slots] at hslot
  obtain ⟨id, -, rfl⟩ := List.mem_map.mp hslot
  refine ⟨rfl, rfl, ⟨_, rfl⟩, fun hgiven => ?_⟩
  cases hicon : (lastNode? D id).bind NodeDecl.icon with
  | none =>
    have hnull : (recordOf D id).icon = .null := congrArg Outline.optional hicon
    dsimp only at hgiven
    rw [hnull] at hgiven
    cases hgiven
  | some uri =>
    have htext : (recordOf D id).icon = .text uri := congrArg Outline.optional hicon
    dsimp only
    rw [htext]
    exact Json.keeps_plain hP (plain_keywordIcons uri (Svg.icon_recordOf hread htext))

theorem colorless_of_parse {text : List Char} {g : Graph} (h : parse text = .ok g) : ∀ e ∈ g.edges, e.color = .null := by
  obtain ⟨D, -, hmeans⟩ := means_of_parse h
  intro e he
  obtain ⟨d, -, hdraws⟩ := hmeans.declared e he
  exact hdraws.color

end Source

namespace Svg

variable {text : List Char} {g₀ g : Graph} {o : Options} {world : Icon.World} {drawn : Rendering}
  {shown : List (DrawnEdge Value)} {scale : Value}

/-- The texts that a drawing of a diagram text shows have the property: names and colours of the nodes, the captions
that can be read, and what the options bring along. -/
structure TextsKeep (P : Char → Prop) (g₀ : Graph) (o : Options) (shown : List (DrawnEdge Value)) (scale : Value) :
    Prop where
  names : ∀ n ∈ g₀.nodes, n.id.Keeps P
  colors : ∀ n ∈ g₀.nodes, n.color.Keeps P
  captions : ∀ d ∈ shown.filter (hasCaption o.style scale), ∀ e, g₀.edges[d.edge.index]? = some e → e.label.Keeps P
  background : isVisible (o.get "background") = true → (o.get "background").Keeps P
  edgeColor : shown ≠ [] → (o.get "edge_color").isGiven = true → (o.get "edge_color").Keeps P

theorem slot_keeps_iff (hP : Ordinary P) {style : Style Value} {slot slot' : Slot} (h : Source.Shows P slot)
    (hid : slot'.id = slot.id) (hnode : slot.node.Moved slot'.node) :
    NodeKeeps P style scale slot'.toScene ↔ slot.node.id.Keeps P ∧ slot.node.color.Keeps P := by
  have hname : slot'.id = slot.node.id := hid.trans h.id
  have hlabel : slot'.node.label = slot.node.id := by
    rw [hnode]
    exact h.label
  have hfill : (slot'.node.color.orElse Node.fallbackFill).Keeps P ↔ slot.node.color.Keeps P := by
    obtain ⟨color, hcolor⟩ := h.color
    rw [hnode, hcolor]
    exact Json.keeps_orElse (Json.keeps_plain hP (.ofList (by decide)))
  have hicon : slot'.node.icon.isGiven = true → slot'.node.icon.Keeps P := by
    rw [hnode]
    exact h.icon
  have hparts : NodeKeeps P style scale slot'.toScene ↔ slot'.id.Keeps P ∧ slot.node.color.Keeps P ∧
      (Caption.isShown style scale slot'.node.disc slot'.node.label = true → slot'.node.label.Keeps P) :=
    ⟨fun hkeeps => ⟨hkeeps.id, hfill.mp hkeeps.fill, hkeeps.label⟩,
      fun hkeeps => ⟨hkeeps.1, hfill.mpr hkeeps.2.1, hicon, hkeeps.2.2⟩⟩
  rw [hparts, hname, hlabel]
  exact ⟨fun hkeeps => ⟨hkeeps.1, hkeeps.2.1⟩, fun hkeeps => ⟨hkeeps.1, hkeeps.2, fun _ => hkeeps.1⟩⟩

theorem nodes_keep_iff (o : Options) (scale : Value) (hP : Ordinary P) (h : Source.parse text = .ok g₀) (hmoved : g₀.OnlyMoved g) :
    (∀ slot ∈ g.slots, NodeKeeps P o.style scale slot.toScene) ↔
      ∀ n ∈ g₀.nodes, n.id.Keeps P ∧ n.color.Keeps P := by
  have hshows := Source.shows_of_parse hP h
  have hslots := hmoved.slots
  rw [Graph.nodes, List.forall_mem_map]
  generalize g₀.slots = slots, g.slots = slots' at hshows hslots
  clear * - hP hshows hslots
  induction hslots with
  | nil => exact iff_of_true (List.forall_mem_nil _) (List.forall_mem_nil _)
  | cons hslot _ ih =>
    obtain ⟨hfirst, hrest⟩ := List.forall_mem_cons.mp hshows
    rw [List.forall_mem_cons, List.forall_mem_cons]
    exact and_congr (slot_keeps_iff hP hfirst hslot.1 hslot.2) (ih hrest)

theorem edgeColor_keeps_iff (hP : Ordinary P) {style : Style Value} {e : Edge} (h : e.color = .null) :
    (edgeColor style e).Keeps P ↔ (style.edgeColor.isGiven = true → style.edgeColor.Keeps P) := by
  have hcurrent : (Json.text "currentColor").Keeps P := Json.keeps_plain hP (.ofList (by decide))
  have hnull : edgeColor style e = style.edgeColor.orElse (.text "currentColor") := by
    rw [edgeColor, h]
    rfl
  rw [hnull, Json.orElse]
  split
  · rename_i hgiven
    exact (imp_iff_right hgiven).symm
  · rename_i hnone
    exact iff_of_true hcurrent fun hgiven => absurd hgiven hnone

theorem edges_keep_iff (scale : Value) (hP : Ordinary P) (h : Source.parse text = .ok g₀) (hmoved : g₀.OnlyMoved g)
    (hfrom : FromEdges g o shown) :
    (∀ d ∈ shown, EdgeKeeps P o.style scale d) ↔
      (∀ d ∈ shown.filter (hasCaption o.style scale), ∀ e, g₀.edges[d.edge.index]? = some e → e.label.Keeps P) ∧
        (shown ≠ [] → (o.get "edge_color").isGiven = true → (o.get "edge_color").Keeps P) := by
  have hedge : ∀ d ∈ shown, ∃ e, g₀.edges[d.edge.index]? = some e ∧ d.edge.label = e.label ∧
      (d.edge.color.Keeps P ↔ ((o.get "edge_color").isGiven = true → (o.get "edge_color").Keeps P)) := by
    intro d hd
    obtain ⟨e, he, hlabel, hcolor⟩ := hfrom d hd
    rw [hmoved.edges] at he
    rw [hcolor]
    -- an edge of a diagram text has no color of its own, so that of the options counts
    exact ⟨e, he, hlabel,
      edgeColor_keeps_iff hP (Source.colorless_of_parse h e (List.mem_of_getElem? he))⟩
  constructor
  · intro hkeeps
    constructor
    · intro d hd e he
      obtain ⟨hd, hcaption⟩ := List.mem_filter.mp hd
      obtain ⟨e', he', hlabel, -⟩ := hedge d hd
      obtain rfl : e = e' := Option.some.inj (he.symm.trans he')
      exact hlabel ▸ (hkeeps d hd).label hcaption
    · intro hsome
      obtain ⟨d, hd⟩ := List.exists_mem_of_ne_nil shown hsome
      obtain ⟨e, -, -, hcolor⟩ := hedge d hd
      exact hcolor.mp (hkeeps d hd).color
  · rintro ⟨hcaptions, hcolors⟩ d hd
    obtain ⟨e, he, hlabel, hcolor⟩ := hedge d hd
    refine ⟨hcolor.mpr (hcolors (List.ne_nil_of_mem hd)), fun hcaption => ?_⟩
    rw [hlabel]
    exact hcaptions d (List.mem_filter.mpr ⟨hd, hcaption⟩) e he

theorem shownKeep_iff (hP : Ordinary P) (h : Source.parse text = .ok g₀) (hmoved : g₀.OnlyMoved g)
    (hfrom : FromEdges g o shown) : ShownKeep P g o shown scale ↔ TextsKeep P g₀ o shown scale := by
  have hnodes := nodes_keep_iff o scale hP h hmoved
  have hedges := edges_keep_iff scale hP h hmoved hfrom
  constructor
  · intro hkeeps
    have hn := hnodes.mp hkeeps.nodes
    obtain ⟨hcaptions, hcolors⟩ := hedges.mp hkeeps.edges
    exact ⟨fun n hmem => (hn n hmem).1, fun n hmem => (hn n hmem).2, hcaptions, hkeeps.background, hcolors⟩
  · intro hkeeps
    exact ⟨hkeeps.background, hedges.mpr ⟨hkeeps.captions, hkeeps.edgeColor⟩,
      hnodes.mpr fun n hmem => ⟨hkeeps.names n hmem, hkeeps.colors n hmem⟩⟩

/-! ### What XML allows -/

/-- The characters that XML 1.0 allows. -/
def isLegal (c : Char) : Bool :=
  let code := Text.codeOf c
  code == 9 || code == 10 || code == 13 || (0x20 ≤ code && code ≤ 0xD7FF) || (0xE000 ≤ code && code ≤ 0xFFFD) ||
    (0x10000 ≤ code && code ≤ 0x10FFFF)

theorem isLegal_of_isGraphic {c : Char} (h : isGraphic c = true) : isLegal c = true := by
  rw [isGraphic, Bool.and_eq_true, decide_eq_true_eq, decide_eq_true_eq] at h
  have hlow : 32 ≤ c.toNat := h.1
  have hhigh : c.toNat ≤ 126 := h.2
  have hshift : c.toNat - Text.halfShift = 0 := Nat.sub_eq_zero_of_le (hhigh.trans (by decide))
  have hcode : Text.codeOf c = c.toNat := by
    rw [Text.codeOf, Text.carriesHalf, hshift]
    rfl
  have hwithin : (decide (0x20 ≤ c.toNat) && decide (c.toNat ≤ 0xD7FF)) = true := by
    rw [Bool.and_eq_true, decide_eq_true_eq, decide_eq_true_eq]
    omega
  simp only [isLegal, hcode, hwithin, Bool.or_true, Bool.true_or]

theorem ordinary_isLegal : Ordinary (isLegal · = true) :=
  ⟨fun _ hc => isLegal_of_isGraphic hc, by decide⟩

/-- What a diagram text and the options bring into a document. -/
def Brought (text : List Char) (o : Options) (c : Char) : Prop :=
  c ∈ text ∧ Text.isLineBreak c = false ∨ c ∈ (o.get "background").spelled ∨ c ∈ (o.get "edge_color").spelled

/-- The texts that a drawing shows have every property of ordinary characters that all they bring has. -/
theorem textsKeep_of_brought (hP : Ordinary P) (h : Source.parse text = .ok g₀) (hbrought : ∀ c, Brought text o c → P c) :
    TextsKeep P g₀ o shown scale := by
  have hwritten := Source.written_of_parse h
  have hkeeps (value : Json) (hvalue : value.Written text) (htext : value.IsCaption) : value.Keeps P := by
    rcases htext with rfl | ⟨s, rfl⟩
    · exact hP.all (by decide)
    · intro c hc
      rcases hvalue s rfl c hc with hin | hplain
      · exact hbrought c (Or.inl hin)
      · have hone : Plain [c] := List.forall_mem_singleton.mpr hplain
        exact hP.plain hone c List.mem_cons_self
  constructor
  · intro n hn
    obtain ⟨id, -, hid, -⟩ := Source.nodes_of_parse h n hn
    exact hkeeps _ (hwritten.ids n hn) (Or.inr ⟨id, hid⟩)
  · intro n hn
    obtain ⟨-, color, -, -, hcolor, -⟩ := Source.nodes_of_parse h n hn
    exact hkeeps _ (hwritten.colors n hn) (Or.inr ⟨color, hcolor⟩)
  · intro d _ e he
    have hmem := List.mem_of_getElem? he
    exact hkeeps _ (hwritten.captions e hmem) (Source.edges_of_text h e hmem).1
  · exact fun _ c hc => hbrought c (Or.inr (Or.inl hc))
  · exact fun _ _ c hc => hbrought c (Or.inr (Or.inr hc))

theorem document_keeps_iff (hP : Ordinary P) (h : Source.parse text = .ok g₀) (hmoved : g₀.OnlyMoved g)
    (icons : o.isSet "embed_icons" = false) (hdrawn : (render g o world {}).result = .ok drawn) :
    ∃ shown scale, shownEdges g o = .ok shown ∧ readingScale g o = .ok scale ∧
      ((∀ c ∈ drawn.svg.toList, P c) ↔ TextsKeep P g₀ o shown scale) := by
  obtain ⟨shown, scale, hshown, hscale, hfrom, hkeeps⟩ := render_keeps hP icons hdrawn
  exact ⟨shown, scale, hshown, hscale, hkeeps.trans (shownKeep_iff hP h hmoved hfrom)⟩

/-- For every diagram text that comes to a graph, every layout and all options without icons: a document that is
rendered is legal if and only if the texts that it shows are, of the graph and of the options. A character that is not
legal stands in the text, where it ends no line, or in the options. -/
theorem documents_are_legal_iff {w : Layout.World} {s : Layout.State} (h : Source.parse text = .ok s.graph) (name : Json)
    (icons : o.isSet "embed_icons" = false)
    (hdrawn : (render (Layout.placeByName w name s).state.graph o world {}).result = .ok drawn) :
    ∃ shown scale, shownEdges (Layout.placeByName w name s).state.graph o = .ok shown ∧
      readingScale (Layout.placeByName w name s).state.graph o = .ok scale ∧
      ((∀ c ∈ drawn.svg.toList, isLegal c = true) ↔ TextsKeep (isLegal · = true) s.graph o shown scale) ∧
      ∀ c ∈ drawn.svg.toList, isLegal c = true ∨ Brought text o c := by
  have hmoved := (Layout.lays_placeByName w name s).moved
  obtain ⟨shown, scale, hshown, hscale, hlegal⟩ := document_keeps_iff ordinary_isLegal h hmoved icons hdrawn
  have hordinary : Ordinary fun c => isLegal c = true ∨ Brought text o c :=
    ⟨fun c hc => Or.inl (ordinary_isLegal.graphic c hc), Or.inl ordinary_isLegal.feed⟩
  obtain ⟨shown', scale', -, -, hsources⟩ := document_keeps_iff hordinary h hmoved icons hdrawn
  exact ⟨shown, scale, hshown, hscale, hlegal,
    hsources.mpr (textsKeep_of_brought hordinary h fun c hc => Or.inr hc)⟩

/-- A world in which every draw is the same. -/
def evenWorld : Layout.World where
  draw := fun _ => .real 0.5

def noIcons : Options := ⟨Json.setField "embed_icons" (.bool false) Options.defaults⟩

theorem isSet_noIcons : noIcons.isSet "embed_icons" = false := by
  decide

theorem usual_noIcons : noIcons.Usual := by
  have hmeasured : ∀ name ∈ Options.measures, noIcons.get name = Options.get {} name := by
    simp only [Options.measures, List.forall_mem_cons]
    exact ⟨rfl, rfl, rfl, rfl, rfl, rfl, rfl, rfl, List.forall_mem_nil _⟩
  exact ⟨hmeasured, fun _ => ⟨_, rfl⟩, nofun⟩

/-- A circle that a text is laid out in. -/
def circled (g : Graph) : Graph := (Layout.placeByName evenWorld (.text "circular") { graph := g }).state.graph

def hasModerateSizes (g : Graph) : Bool :=
  g.nodes.all (fun n => Pipeline.isModerate n.size) && g.edges.all fun e => Pipeline.isModerate e.size

theorem circled_drawn (h : Source.parse text = .ok g₀) (hlength : text.length < moderateLimit)
    (hsizes : hasModerateSizes g₀ = true) : ∃ drawn, (render (circled g₀) noIcons {} {}).result = .ok drawn := by
  obtain ⟨hnodes, hedges⟩ := Bool.and_eq_true_iff.mp hsizes
  have hmoderate : Source.Moderate text g₀ :=
    ⟨hlength, fun n hn _ => Pipeline.lt_of_isModerate (List.all_eq_true.mp hnodes n hn),
      fun e he _ => Pipeline.lt_of_isModerate (List.all_eq_true.mp hedges e he)⟩
  obtain ⟨-, hplotted⟩ := Layout.placeByName_plots (w := evenWorld) (s := { graph := g₀ }) Layout.unitDraws_half rfl
    "circular" (Source.plottable_of_parse h hmoderate)
  have hmoved := (Layout.lays_placeByName evenWorld (.text "circular") { graph := g₀ }).moved
  exact (render_succeeds usual_noIcons.style (Source.drawable_of_parse h hmoderate hmoved hplotted) {}).exists_ok

/-- A line of a node, and an edge with a caption that is escaped. -/
def knowingText : List Char := "node Ann 30 #red\nAnn --> Bob: knows & likes".toList

theorem knowingText_is_legal :
    ∃ g drawn, Source.parse knowingText = .ok g ∧ noIcons.isSet "embed_icons" = false ∧
      (render (circled g) noIcons {} {}).result = .ok drawn ∧ ∀ c ∈ drawn.svg.toList, isLegal c = true := by
  obtain ⟨g, hparse, hsizes⟩ : Succeeds (Source.parse knowingText) (hasModerateSizes · = true) :=
    .of_any (by decide +kernel)
  obtain ⟨drawn, hdrawn⟩ := circled_drawn hparse (by decide +kernel) hsizes
  have hstate : Source.parse knowingText = .ok (Layout.State.graph { graph := g }) := hparse
  obtain ⟨shown, scale, -, -, -, hsources⟩ := documents_are_legal_iff hstate (.text "circular") isSet_noIcons hdrawn
  have hbrought : (knowingText ++ (noIcons.get "background").spelled ++ (noIcons.get "edge_color").spelled).all isLegal =
      true := by decide +kernel
  refine ⟨g, drawn, hparse, isSet_noIcons, hdrawn, fun c hc => ?_⟩
  rcases hsources c hc with hlegal | hbrings
  · exact hlegal
  · refine List.all_eq_true.mp hbrought c ?_
    rcases hbrings with ⟨htext, -⟩ | hbackground | hcolor
    · exact List.mem_append_left _ (List.mem_append_left _ htext)
    · exact List.mem_append_left _ (List.mem_append_right _ hbackground)
    · exact List.mem_append_right _ hcolor

/-- A node whose name is a control character. -/
def controlText : List Char := ['n', 'o', 'd', 'e', ' ', Char.ofNat 1]

/-- Not every document is legal: nothing keeps a control character out of a name. -/
theorem control_characters_are_kept : ¬∀ (text : List Char) (w : Layout.World) (s : Layout.State) (name : Json)
    (o : Options) (drawn : Rendering), Source.parse text = .ok s.graph → o.isSet "embed_icons" = false →
    (render (Layout.placeByName w name s).state.graph o {} {}).result = .ok drawn →
    ∀ c ∈ drawn.svg.toList, isLegal c = true := by
  intro hall
  obtain ⟨g, hparse, hg⟩ : Succeeds (Source.parse controlText)
      (fun g => (hasModerateSizes g && g.nodes.any fun n => n.id.spelled.any fun c => !isLegal c) = true) :=
    .of_any (by decide +kernel)
  obtain ⟨hsizes, hname⟩ := Bool.and_eq_true_iff.mp hg
  obtain ⟨n, hn, hid⟩ := List.any_eq_true.mp hname
  obtain ⟨c, hc, hillegal⟩ := List.any_eq_true.mp hid
  obtain ⟨drawn, hdrawn⟩ := circled_drawn hparse (by decide +kernel) hsizes
  have hmoved := (Layout.lays_placeByName evenWorld (.text "circular") { graph := g }).moved
  obtain ⟨shown, scale, -, -, hlegal⟩ := document_keeps_iff ordinary_isLegal hparse hmoved isSet_noIcons hdrawn
  have hkeeps := hlegal.mp (hall controlText evenWorld { graph := g } (.text "circular") noIcons drawn hparse isSet_noIcons
    hdrawn)
  rw [hkeeps.names n hn c hc] at hillegal
  cases hillegal

end Svg
end NodeLink
