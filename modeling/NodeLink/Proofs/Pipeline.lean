import NodeLink.Proofs.Layout.Plotting
import NodeLink.Proofs.Source.Lengths
import NodeLink.Proofs.Svg.SymbolReferences
import NodeLink.Proofs.Svg.Totality

/-!
# From texts to documents

A graph that a text comes to is laid out under every name and then rendered, as long as the text and the sizes and
weights in it are moderate: neither its layout nor its document fails. Beyond that, a size that has no double stops
the drawing of any graph.
-/

namespace NodeLink

open Value

/-! ## Graphs of texts -/

/-- The text is not too long, and no size or weight that it brings along is too large. -/
structure Source.Moderate (text : List Char) (g : Graph) : Prop where
  length : text.length < moderateLimit
  sizes : ∀ n ∈ g.nodes, ∀ size : Nat, n.size = .whole size → size < moderateLimit
  weights : ∀ e ∈ g.edges, ∀ weight : Nat, e.size = .whole weight → weight < moderateLimit

/-- A node as a text brings it along, without a place. -/
structure Node.Unplaced (n : Node) : Prop where
  id : n.id.IsText
  label : n.label.IsLabel
  size : (Value.ofJson n.size).IsSize
  color : n.color.IsText
  icon : Icon.IsLocal n.icon
  x : n.x = .null
  y : n.y = .null

theorem Value.IsSize.fitsTwice {v : Value} (h : v.IsSize) : v.FitsTwice := by
  obtain ⟨n, rfl, hn⟩ := h
  exact Or.inr ⟨n, rfl, wholeFits_of_moderate (n := 2 * n) (by omega)⟩

theorem Json.isCaption_of_isText {value : Json} (h : value.IsText) : value.IsCaption := Or.inr h

namespace Node

variable {n n' : Node}

theorem Unplaced.writable (h : n.Unplaced) : n.Writable where
  id := h.id
  label := Json.isCaption_of_isText h.label.isText
  color := Json.isCaption_of_isText h.color
  size := h.size.fitsTwice
  x := Or.inl h.x
  y := Or.inl h.y

theorem isDouble_coordinate {value : Json} (h : value.IsDouble) : (coordinate value).IsDouble := by
  unfold coordinate
  rw [isNull_of_isDouble h]
  exact h

theorem Unplaced.drawable (h : n.Unplaced) (hmoved : n.Moved n') (hx : n'.x.IsDouble) (hy : n'.y.IsDouble) :
    n'.Drawable := by
  have hx := isDouble_coordinate hx
  have hy := isDouble_coordinate hy
  rw [hmoved]
  exact ⟨h.label, h.size, h.color, h.icon, hx, hy⟩

end Node

namespace Source

variable {text : List Char} {g : Graph} {D : List Declaration}

theorem length_of_within {s : String} (h : s.toList <:+: text) : s.length ≤ text.length := by
  rw [← String.length_toList]
  exact h.length_le

theorem declarations_of_text (h : declarations (statements text) = .ok D) :
    D.length ≤ text.length ∧ ∀ d ∈ D, d.Within text := by
  refine ⟨(length_declarations h).trans (length_statements text), fun d hd => ?_⟩
  obtain ⟨line, hline, hd⟩ := declarations_within h d hd
  exact hd.mono (statements_within hline)

theorem length_of_mem_idsOf (h : declarations (statements text) = .ok D) {id : String} (hid : id ∈ idsOf D) :
    id.length ≤ text.length := by
  obtain ⟨d, hd, hmentioned⟩ := List.mem_flatMap.mp (List.mem_eraseDups.mp hid)
  exact length_of_within (((declarations_of_text h).2 d hd).names id hmentioned)

theorem keywordIcons_local : ∀ uri ∈ Svg.keywordIcons, Icon.isWeb uri.toList = false ∧
    Text.afterLead? "file://".toList uri.toList = none := by
  decide +kernel

theorem unplaced_of_parse (h : parse text = .ok g) (hm : Moderate text g) :
    ∀ slot ∈ g.slots, slot.id.IsText ∧ slot.node.Unplaced := by
  obtain ⟨D, hread, hmeans⟩ := means_of_parse h
  intro slot hslot
  have hsize := hm.sizes slot.node (List.mem_map_of_mem hslot)
  rw [hmeans.slots] at hslot
  obtain ⟨id, hid, rfl⟩ := List.mem_map.mp hslot
  refine ⟨⟨id, rfl⟩, ⟨⟨id, rfl⟩, ⟨id, rfl, ?_⟩, ⟨_, rfl, hsize _ rfl⟩, ⟨_, rfl⟩, ?_, rfl, rfl⟩⟩
  · exact (length_of_mem_idsOf hread hid).trans_lt hm.length
  · cases hicon : (recordOf D id).icon with
    | text uri =>
      obtain ⟨hweb, hfile⟩ := keywordIcons_local uri (Svg.icon_recordOf hread hicon)
      exact Or.inr ⟨uri, rfl, hweb, hfile⟩
    | null => exact Or.inl rfl
    | _ =>
      have hoptional : Outline.optional ((lastNode? D id).bind NodeDecl.icon) = _ := hicon
      cases hfound : (lastNode? D id).bind NodeDecl.icon <;> rw [hfound] at hoptional <;> cases hoptional

theorem edges_of_parse (h : parse text = .ok g) (hm : Moderate text g) :
    ∀ e ∈ g.edges, e.Drawable ∧ e.Writable := by
  obtain ⟨D, hread, hmeans⟩ := means_of_parse h
  intro e he
  obtain ⟨d, hdecl, hdraws⟩ := hmeans.declared e he
  have hwithin := (declarations_of_text hread).2 _ hdecl
  have hsize : (Value.ofJson e.size).IsSize := by
    rw [hdraws.size]
    exact ⟨d.weight, rfl, hm.weights e he d.weight hdraws.size⟩
  have hcolor : e.color.isGiven = true → e.color.IsText := by
    rw [hdraws.color]
    exact nofun
  cases hlabel : d.label with
  | none =>
    have hnull : e.label = .null := by rw [hdraws.label, hlabel]; rfl
    refine ⟨⟨⟨_, hdraws.source⟩, ⟨_, hdraws.target⟩, hsize, hcolor, ?_⟩,
      ⟨⟨_, hdraws.source⟩, ⟨_, hdraws.target⟩, Or.inl hnull⟩⟩
    rw [hnull]
    exact nofun
  | some label =>
    have htext : e.label = .text label := by rw [hdraws.label, hlabel]; rfl
    have hshort : label.length < moderateLimit :=
      (length_of_within (hwithin.label d rfl label hlabel)).trans_lt hm.length
    exact ⟨⟨⟨_, hdraws.source⟩, ⟨_, hdraws.target⟩, hsize, hcolor, fun _ => ⟨label, htext, hshort⟩⟩,
      ⟨⟨_, hdraws.source⟩, ⟨_, hdraws.target⟩, Or.inr ⟨label, htext⟩⟩⟩

theorem counts_of_parse (h : parse text = .ok g) :
    g.slots.length ≤ 2 * text.length ∧ g.edges.length ≤ text.length := by
  obtain ⟨D, hread, hmeans⟩ := means_of_parse h
  have hfew := (declarations_of_text hread).1
  constructor
  · rw [hmeans.slots, List.length_map]
    exact (length_idsOf D).trans (Nat.mul_le_mul_left 2 hfew)
  · rw [← hmeans.edges.length_eq]
    exact (List.length_filterMap_le _ _).trans hfew

theorem plottable_of_parse (h : parse text = .ok g) (hm : Moderate text g) : g.Plottable := by
  have hnodes : ∀ n ∈ g.nodes, n.Unplaced := by
    intro n hn
    obtain ⟨slot, hslot, rfl⟩ := List.mem_map.mp hn
    exact (unplaced_of_parse h hm slot hslot).2
  have htitle : ∃ title, g.title = .text title := by
    obtain ⟨D, -, hmeans⟩ := means_of_parse h
    exact ⟨_, hmeans.title⟩
  refine ⟨⟨htitle, fun n hn => (hnodes n hn).writable, fun e he => (edges_of_parse h hm e he).2⟩, ?_, ?_⟩
  · exact (counts_of_parse h).1.trans_lt (Nat.mul_lt_mul_of_pos_left hm.length (by decide))
  · intro n hn
    rw [(hnodes n hn).x, (hnodes n hn).y]
    exact ⟨nofun, nofun⟩

theorem drawable_of_parse {g' : Graph} (h : parse text = .ok g) (hm : Moderate text g) (hmoved : g.OnlyMoved g')
    (hplotted : g'.Plotted) : g'.Drawable := by
  have hslots : ∀ slot' ∈ g'.slots, slot'.id.IsText ∧ slot'.node.Drawable := by
    intro slot' hslot'
    obtain ⟨slot, hslot, hid, hnode⟩ := exists_of_forall₂ hmoved.slots hslot'
    obtain ⟨htext, hunplaced⟩ := unplaced_of_parse h hm slot hslot
    obtain ⟨hx, hy⟩ := hplotted slot'.node (List.mem_map_of_mem hslot')
    rw [hid]
    exact ⟨htext, hunplaced.drawable hnode hx hy⟩
  refine ⟨fun slot hslot => (hslots slot hslot).1, fun slot hslot => (hslots slot hslot).2, ?_, ?_⟩
  · rw [hmoved.edges]
    exact fun e he => (edges_of_parse h hm e he).1
  · rw [hmoved.edges]
    exact (counts_of_parse h).2.trans_lt hm.length

end Source

/-! ## Options -/

namespace Options

/-- The options that a drawing measures by. -/
def measures : List String :=
  ["width", "height", "padding", "label_min_font_size", "label_max_font_size", "label_fill_ratio",
    "label_hide_below", "reference_size"]

/-- Options with any flags and colours, but with the default measures. -/
structure Usual (o : Options) : Prop where
  measured : ∀ name ∈ measures, o.get name = Options.get {} name
  background : (o.get "background").isGiven = true → (o.get "background").IsText
  edgeColor : (o.get "edge_color").isGiven = true → (o.get "edge_color").IsText

variable {o : Options}

theorem Usual.valueOf (h : o.Usual) (name : String) (hname : name ∈ measures) :
    o.valueOf name = Options.valueOf {} name := congrArg Value.ofJson (h.measured name hname)

theorem Usual.fits_sizeOf (h : o.Usual) {name : String} (hname : name ∈ measures)
    (hfits : (Options.valueOf {} name).Fits) : ∀ size ∈ o.sizeOf? name, size.Fits := by
  intro size hsize
  unfold sizeOf? at hsize
  split at hsize
  · cases hsize
    rwa [h.valueOf name hname]
  · cases hsize

theorem Usual.style (h : o.Usual) : o.style.Usual where
  width := h.fits_sizeOf (by decide) (fits_whole (n := 800) (by decide))
  height := h.fits_sizeOf (by decide) (fits_whole (n := 600) (by decide))
  padding := by
    have hpadding : o.style.padding = .whole 20 := h.valueOf "padding" (by decide)
    rw [hpadding]
    exact fits_whole (by decide)
  bothPaddings := by
    have hpadding : o.style.padding = .whole 20 := h.valueOf "padding" (by decide)
    rw [hpadding]
    exact fits_whole (n := 40) (by decide)
  minFont := by
    have hmin : o.style.minFont = .whole 4 := h.valueOf "label_min_font_size" (by decide)
    rw [hmin]
    exact Or.inr ⟨4, rfl, by decide⟩
  maxFont := by
    have hmax : o.style.maxFont = .whole 14 := h.valueOf "label_max_font_size" (by decide)
    rw [hmax]
    exact Or.inr ⟨14, rfl, by decide⟩
  fillRatio := ⟨0.9, h.valueOf "label_fill_ratio" (by decide)⟩
  hideBelow := ⟨3.0, h.valueOf "label_hide_below" (by decide)⟩
  referenceSize := by
    have hsize : o.style.referenceSize = .whole 800 := h.valueOf "reference_size" (by decide)
    rw [hsize]
    exact fits_whole (by decide)
  background := h.background
  edgeColor := h.edgeColor

end Options

/-! ## Diagrams that are drawn, and one that is not -/

namespace Pipeline

/-- A layout comes to its end, and the graph that it leaves is rendered. -/
def IsDrawn (placed : Layout.Result) (o : Options) (icons : Icon.World) : Prop :=
  placed.fault = none ∧ ∃ drawn, (Svg.render placed.state.graph o icons {}).result = .ok drawn

/-- For every text that comes to a graph, as long as neither the text nor its sizes and weights are beyond all
measure: under every name, with every stream of draws from 0 to 1, without Graphviz, with every choice of flags and
colours and whatever is known of icons, layout and drawing come to their end. -/
theorem moderate_texts_are_drawn {text : List Char} {g : Graph} (h : Source.parse text = .ok g)
    (hm : Source.Moderate text g) {w : Layout.World} (hd : Force.UnitDraws w.draw) (hw : w.graphviz = .missing)
    (name : String) {s : Layout.State} (hs : s.graph = g) {o : Options} (ho : o.Usual) (icons : Icon.World) :
    IsDrawn (Layout.placeByName w (.text name) s) o icons := by
  have hplottable : s.graph.Plottable := by
    rw [hs]
    exact Source.plottable_of_parse h hm
  obtain ⟨hends, hplotted⟩ := Layout.placeByName_plots hd hw name hplottable
  have hmoved := (Layout.lays_placeByName w (.text name) s).moved
  rw [hs] at hmoved
  have hdrawable := Source.drawable_of_parse h hm hmoved hplotted
  exact ⟨hends, (Svg.render_succeeds ho.style hdrawable icons).exists_ok⟩

/-- A line of a node, an edge with a label, and a node with an icon. -/
def smallText : List Char := "graphDiagram Small\nperson Ann 30 #red\nAnn -3-> Bob: knows".toList

/-- A whole number is below the limit. -/
def isModerate : Json → Bool
  | .number (.whole n) => decide (n.toNat < moderateLimit)
  | _ => false

theorem lt_of_isModerate {value : Json} (h : isModerate value = true) {n : Nat} (hn : value = .whole n) :
    n < moderateLimit := by
  rw [hn] at h
  simpa [isModerate, Json.whole] using h

theorem smallText_is_drawn :
    ∃ g, Source.parse smallText = .ok g ∧ Source.Moderate smallText g ∧ Force.UnitDraws (fun _ => .real 0.5) ∧
      Options.Usual {} ∧
      IsDrawn (Layout.placeByName { draw := fun _ => .real 0.5 } (.text "circular") { graph := g }) {} {} := by
  have hdiagram : (Source.parse smallText).toOption.any (fun g =>
      g.nodes.all (fun n => isModerate n.size) && g.edges.all fun e => isModerate e.size) = true := by decide +kernel
  cases hparse : Source.parse smallText with
  | error fault =>
    rw [hparse] at hdiagram
    cases hdiagram
  | ok g =>
    rw [hparse] at hdiagram
    obtain ⟨hsizes, hweights⟩ := Bool.and_eq_true_iff.mp hdiagram
    have hmoderate : Source.Moderate smallText g :=
      ⟨by decide +kernel, fun n hn _ => lt_of_isModerate (List.all_eq_true.mp hsizes n hn),
        fun e he _ => lt_of_isModerate (List.all_eq_true.mp hweights e he)⟩
    have husual : Options.Usual {} := ⟨fun _ _ => rfl, fun _ => ⟨_, rfl⟩, nofun⟩
    exact ⟨g, rfl, hmoderate, Layout.unitDraws_half, husual,
      moderate_texts_are_drawn hparse hmoderate Layout.unitDraws_half rfl "circular" rfl husual {}⟩

/-- A node of a size with 310 digits. -/
def hugeText : List Char := "node A ".toList ++ List.replicate 310 '9'

/-- A whole number that has no double. -/
def isHuge : Json → Bool
  | .number (.whole n) => !wholeFits n
  | _ => false

theorem exists_of_isHuge {value : Json} (h : isHuge value = true) : ∃ n, value = .whole n ∧ wholeFits n = false := by
  unfold isHuge at h
  split at h
  · rename_i n
    exact ⟨n, rfl, by simpa using h⟩
  · cases h

/-- What holds of moderate texts does not hold of all. -/
theorem huge_text_is_not_drawn :
    ¬∀ (text : List Char) (g : Graph) (w : Layout.World) (name : String) (s : Layout.State) (o : Options)
      (icons : Icon.World), Source.parse text = .ok g → Force.UnitDraws w.draw → w.graphviz = .missing → s.graph = g →
      o.Usual → IsDrawn (Layout.placeByName w (.text name) s) o icons := by
  intro hall
  have hdiagram : (Source.parse hugeText).toOption.any (fun g => g.slots.any fun slot => isHuge slot.node.size) = true := by
    decide +kernel
  cases hparse : Source.parse hugeText with
  | error fault =>
    rw [hparse] at hdiagram
    cases hdiagram
  | ok g =>
    rw [hparse] at hdiagram
    obtain ⟨slot, hslot, hsize⟩ := List.any_eq_true.mp hdiagram
    obtain ⟨n, hn, hhuge⟩ := exists_of_isHuge hsize
    have husual : Options.Usual {} := ⟨fun _ _ => rfl, fun _ => ⟨_, rfl⟩, nofun⟩
    have hdraws : Force.UnitDraws (Layout.World.draw { draw := fun _ => .real 0.5 }) := Layout.unitDraws_half
    obtain ⟨-, drawn, hdrawn⟩ := hall hugeText g { draw := fun _ => .real 0.5 } "random" { graph := g } {} {} hparse
      hdraws rfl rfl husual
    -- Wherever the node is put, it keeps its size, and that has no double.
    obtain ⟨-, hplotted⟩ := Layout.placeByName_random_plots hdraws { graph := g }
    have hmoved := (Layout.lays_placeByName { draw := fun _ => .real 0.5 } (.text "random") { graph := g }).moved
    obtain ⟨slot', hslot', -, hnode⟩ := exists_of_forall₂ hmoved.slots.flip hslot
    have hsize' : slot'.node.size = .whole n := by
      rw [hnode]
      exact hn
    have hx := Node.isDouble_coordinate (hplotted slot'.node (List.mem_map_of_mem hslot')).1
    rw [Svg.fits_of_render hdrawn hslot' hx hsize'] at hhuge
    cases hhuge

end Pipeline
end NodeLink
