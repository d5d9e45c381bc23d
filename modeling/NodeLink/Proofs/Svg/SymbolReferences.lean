import NodeLink.Proofs.Icon.Loading
import NodeLink.Proofs.Icon.SymbolIds
import NodeLink.Proofs.Layout.Positions
import NodeLink.Proofs.Source.Meaning
import NodeLink.Proofs.Svg.Documents

/-!
# References to symbols

A node refers to the symbol of its icon by an id. The reference is good as long as no two icons clash, which
holds for the icons that come with keywords but not for icons in general.
-/

namespace NodeLink.Svg

open NodeLink.Symbol (Clash)

/-- No two addresses among the values clash. -/
def Unclashing (uris : List Json) : Prop :=
  ∀ uri uri', .text uri ∈ uris → .text uri' ∈ uris → Clash uri.toList uri'.toList → uri = uri'

def reference (id : List Char) (place : List Attr) : Markup :=
  .empty "use".toList (.ofPlain "href" ('#' :: id) :: place) false

def outsideImage (uri : List Char) (place : List Attr) : Markup :=
  .empty "image".toList (.ofText "href" uri :: place) false

/-- What is drawn for an icon: a reference by the id of its address if it was loaded, else an image from
outside. -/
inductive Pictured (world : Icon.World) (symbols : List (Json × Symbol)) : Json → List Markup → Prop where
  | nothing {icon : Json} (h : icon.isGiven = false) : Pictured world symbols icon []
  | symbol {uri : String} (place : List Attr) (h : .text uri ∈ symbols.map (·.1)) :
      Pictured world symbols (.text uri) [reference (Symbol.idOf uri.toList) place]
  | image {uri : String} (place : List Attr) (h : Icon.Missing world (.text uri)) :
      Pictured world symbols (.text uri) [outsideImage uri.toList place]

/-- The group of a node holds what is drawn for its icon between circle and caption. -/
def GroupOf (world : Icon.World) (symbols : List (Json × Symbol)) (slot : Slot) (m : Markup) : Prop :=
  ∃ id circle picture caption,
    m = .element "g".toList [.ofPlain "class" "node".toList, .ofText "data-node-id" id]
      (circle :: picture ++ caption) ∧
    Pictured world symbols slot.node.icon picture

/-- The document of a graph is written with the symbols and the groups of nodes in its layer of nodes. -/
structure Embeds (g : Graph) (o : Options) (world : Icon.World) (drawn : Rendering)
    (symbols : List (Json × Symbol)) (groups : List Markup) : Prop where
  written : ∃ box edges m, document o.style box edges (symbolDefs symbols ++ groups) = .ok m ∧
    drawn.svg = String.ofList m.write
  gathered : Icon.Gathers world (g.nodes.map (·.icon)) symbols
  groups : List.Forall₂ (GroupOf world symbols) g.slots groups

/-- The ids of symbols are distinct, and the only symbol with the id of an address is made of what this
address gives. -/
structure Resolves (world : Icon.World) (symbols : List (Json × Symbol)) : Prop where
  distinct : (symbols.map (·.2.id)).Nodup
  own : ∀ uri, .text uri ∈ symbols.map (·.1) → ∃ svg, Icon.fetch world (.text uri) = .ok svg ∧
    symbols.filter (·.2.id == Symbol.idOf uri.toList) =
      [(.text uri, Symbol.ofSvg svg (Symbol.idOf uri.toList))]

variable {g : Graph} {o : Options} {world : Icon.World} {drawn : Rendering} {uris : List Json}
  {symbols : List (Json × Symbol)}

/-! ### Ids of loaded symbols -/

/-- What was loaded for an address is the symbol of what the address gives. -/
theorem entry_of_mem (hl : Icon.Gathers world uris symbols) {uri : String} (h : .text uri ∈ symbols.map (·.1)) :
    ∃ svg, Icon.fetch world (.text uri) = .ok svg ∧
      (.text uri, Symbol.ofSvg svg (Symbol.idOf uri.toList)) ∈ symbols := by
  obtain ⟨entry, he, huri⟩ := List.mem_map.mp h
  obtain ⟨t, svg, htext, hfetch, hs⟩ := hl.made entry he
  obtain rfl : t = uri := Json.text.inj (htext.symm.trans huri)
  obtain rfl : entry = (.text t, Symbol.ofSvg svg (Symbol.idOf t.toList)) := Prod.ext htext hs
  exact ⟨svg, hfetch, he⟩

theorem nodup_ids_iff (hl : Icon.Gathers world uris symbols) :
    (symbols.map (·.2.id)).Nodup ↔ Unclashing (symbols.map (·.1)) := by
  constructor
  · intro hnodup uri uri' hm hm' hclash
    obtain ⟨svg, -, he⟩ := entry_of_mem hl hm
    obtain ⟨svg', -, he'⟩ := entry_of_mem hl hm'
    have hsame := List.inj_on_of_nodup_map hnodup he he' (Symbol.idOf_eq_iff.mpr hclash)
    exact Json.text.inj (congrArg Prod.fst hsame)
  · intro hclash
    have hinj : ∀ entry ∈ symbols, ∀ entry' ∈ symbols, entry.2.id = entry'.2.id → entry = entry' := by
      intro entry he entry' he' hid
      obtain ⟨t, svg, htext, -, hs⟩ := hl.made entry he
      obtain ⟨t', svg', htext', -, hs'⟩ := hl.made entry' he'
      rw [hs, hs'] at hid
      have hsame : t = t' :=
        hclash t t' (htext ▸ List.mem_map_of_mem he) (htext' ▸ List.mem_map_of_mem he')
          (Symbol.idOf_eq_iff.mp hid)
      have huri : entry.1 = entry'.1 := by rw [htext, htext', hsame]
      exact List.inj_on_of_nodup_map hl.distinct he he' huri
    exact (List.Nodup.of_map _ hl.distinct).map_on hinj

/-- Where ids are distinct, the id of an entry finds this entry only. -/
theorem filter_id_eq (hnodup : (symbols.map (·.2.id)).Nodup) {entry : Json × Symbol} (he : entry ∈ symbols) :
    symbols.filter (·.2.id == entry.2.id) = [entry] := by
  induction symbols with
  | nil => cases he
  | cons first rest ih =>
    obtain ⟨hfirst, hrest⟩ := List.nodup_cons.mp hnodup
    rcases List.mem_cons.mp he with rfl | he
    · have hnone : rest.filter (·.2.id == entry.2.id) = [] := by
        rw [List.filter_eq_nil_iff]
        intro other hm hsame
        exact hfirst (List.mem_map.mpr ⟨other, hm, by simpa using hsame⟩)
      rw [List.filter_cons_of_pos (by simp), hnone]
    · have hother : first.2.id ≠ entry.2.id := fun hsame =>
        hfirst (List.mem_map.mpr ⟨entry, he, hsame.symm⟩)
      rw [List.filter_cons_of_neg (by simpa using hother), ih hrest he]

theorem resolves_of_unclashing (hl : Icon.Gathers world uris symbols) (hclash : Unclashing uris) :
    Resolves world symbols := by
  have hsub : ∀ uri, .text uri ∈ symbols.map (·.1) → .text uri ∈ uris := by
    intro uri hm
    obtain ⟨entry, he, huri⟩ := List.mem_map.mp hm
    exact huri ▸ hl.subset entry he
  have hnodup : (symbols.map (·.2.id)).Nodup :=
    (nodup_ids_iff hl).mpr fun uri uri' hm hm' => hclash uri uri' (hsub uri hm) (hsub uri' hm')
  refine ⟨hnodup, fun uri hm => ?_⟩
  obtain ⟨svg, hfetch, he⟩ := entry_of_mem hl hm
  exact ⟨svg, hfetch, filter_id_eq hnodup he⟩

/-! ### Groups of nodes -/

theorem pictured_nodeIcon {loaded : Icon.Loaded} {n : SceneNode Value} {ms : List Markup}
    (hl : Icon.Gathers world uris loaded.symbols) (hicon : n.icon ∈ uris)
    (h : nodeIcon loaded n = .ok ms) : Pictured world loaded.symbols n.icon ms := by
  obtain ⟨hnot, rfl⟩ | ⟨hgiven, symbol, m, hfound, rfl, ⟨s, rfl, hm⟩ | ⟨rfl, hm⟩⟩ := nodeIcon_eq_ok h
  · exact .nothing hnot
  · -- The symbol was loaded for the icon, so that its id is made of this address.
    have hentry := Icon.symbol?_eq_some hl hfound
    obtain ⟨uri, svg, htext, -, hs⟩ := hl.made _ hentry
    obtain ⟨box, place, -, rfl⟩ := Icon.useMarkup_eq_ok hm
    change n.icon = .text uri at htext
    change s = _ at hs
    rw [htext] at hentry ⊢
    rw [hs]
    exact .symbol place (List.mem_map_of_mem hentry)
  · have hmissing : Icon.Missing world n.icon := by
      rcases hl.complete n.icon hicon hgiven with ⟨s, hs⟩ | hmissing
      · exact absurd hs (Icon.symbol?_eq_none hfound s)
      · exact hmissing
    obtain ⟨name, area, place, hname, -, rfl⟩ := Icon.imageMarkup_eq_ok hm
    obtain ⟨uri, htext, rfl⟩ := Json.written?_eq_ok hname
    rw [htext] at hmissing ⊢
    exact .image _ hmissing

theorem groupOf_nodeMarkup {loaded : Icon.Loaded} {style : Style Value} {scale : Value} {slot : Slot}
    {m : Markup} (hl : Icon.Gathers world uris loaded.symbols) (hicon : slot.node.icon ∈ uris)
    (h : nodeMarkup style loaded scale slot.toScene = .ok m) : GroupOf world loaded.symbols slot m := by
  obtain ⟨id, circle, picture, caption, -, -, hpicture, -, rfl⟩ := nodeMarkup_eq_ok h
  exact ⟨id, circle, picture, caption, rfl, pictured_nodeIcon (n := slot.toScene) hl hicon hpicture⟩

theorem render_embeds (icons : o.isSet "embed_icons" = true) (h : (render g o world {}).result = .ok drawn) :
    ∃ symbols groups, Embeds g o world drawn symbols groups := by
  obtain ⟨framed, ⟨nodes, loaded⟩, m, hrendered⟩ := render_eq_ok h
  have hnodes := nodes_of_fanOutEdges hrendered.fanned o.style
  obtain ⟨groups, hload, hall, rfl⟩ := writeNodes_eq_ok hrendered.nodes
  have hembed : o.style.embedIcons = true := icons
  have hsame : (drawn.graph.scene o.style).nodes.map (·.icon) = g.nodes.map (·.icon) := by
    simp [hnodes, Graph.nodes, Slot.toScene, Function.comp_def]
  rw [loadIcons, if_pos hembed, hsame] at hload
  have hl := Icon.gathers_loadAll hload
  refine ⟨loaded.symbols, groups, ⟨⟨framed.box, framed.edges, m, hrendered.document, hrendered.svg⟩, hl, ?_⟩⟩
  rw [hnodes, List.forall₂_map_left_iff] at hall
  have hicons : ∀ slot ∈ g.slots, slot.node.icon ∈ g.nodes.map (·.icon) := fun slot hslot =>
    List.mem_map_of_mem (List.mem_map_of_mem hslot)
  clear * - hall hl hicons
  generalize g.nodes.map (·.icon) = uris at hl hicons
  generalize g.slots = slots at hall hicons
  induction hall with
  | nil => exact .nil
  | cons hm _ ih =>
    obtain ⟨hicon, hicons⟩ := List.forall_mem_cons.mp hicons
    exact .cons (groupOf_nodeMarkup hl hicon hm) (ih hicons)

/-! ### Icons of diagram texts -/

/-- The addresses of the icons that come with keywords. -/
def keywordIcons : List String := Source.nodeKeywords.filterMap Source.iconOf?

theorem keywordIcons_unclashing : ∀ uri ∈ keywordIcons, ∀ uri' ∈ keywordIcons,
    Symbol.hash uri.toList = Symbol.hash uri'.toList → uri = uri' := by
  decide +kernel

theorem matchNode_icon {tokens : List (List Char)} {d : Source.NodeDecl}
    (h : Source.matchNode tokens = .ok (some (.node d))) : ∀ uri ∈ d.icon, uri ∈ keywordIcons := by
  obtain ⟨first, id, rest, color, size, -, hkeyword, -, he⟩ := Source.matchNode_node h
  cases he
  exact fun uri huri => List.mem_filterMap.mpr ⟨_, hkeyword, huri⟩

theorem readLine_icon {line : List Char} {d : Source.NodeDecl} {notices : List Notice}
    (h : Source.readLine line = .ok (some (.node d), notices)) : ∀ uri ∈ d.icon, uri ∈ keywordIcons := by
  rcases Source.readLine_some h with h | h | h
  · obtain ⟨rest, -, h⟩ := Option.map_eq_some_iff.mp h
    cases h
  · exact matchNode_icon h
  · obtain ⟨link, -, -, -, he⟩ := Source.matchEdge_link h
    cases he

theorem declarations_icon {lines : List (List Char)} {D : List Source.Declaration}
    (h : Source.declarations lines = .ok D) {d : Source.NodeDecl} (hd : .node d ∈ D) :
    ∀ uri ∈ d.icon, uri ∈ keywordIcons := by
  obtain ⟨line, -, notices, hread⟩ := Source.declarations_lines h _ hd
  exact readLine_icon hread

theorem icon_recordOf {lines : List (List Char)} {D : List Source.Declaration} (h : Source.declarations lines = .ok D)
    {id uri : String} (hicon : (Source.recordOf D id).icon = .text uri) : uri ∈ keywordIcons := by
  change Source.Outline.optional ((Source.lastNode? D id).bind Source.NodeDecl.icon) = .text uri at hicon
  cases hbound : (Source.lastNode? D id).bind Source.NodeDecl.icon with
  | none =>
    rw [hbound] at hicon
    cases hicon
  | some found =>
    rw [hbound] at hicon
    cases hicon
    obtain ⟨d, hlast, hd⟩ := Option.bind_eq_some_iff.mp hbound
    exact declarations_icon h (Source.lastNode?_mem hlast).1 uri hd

/-- The icons of a graph of a text come with keywords, wherever its nodes are moved. -/
theorem icon_of_parse {text : List Char} {g₀ : Graph} (h : Source.parse text = .ok g₀)
    (hmoved : g₀.OnlyMoved g) {uri : String} (hm : .text uri ∈ g.nodes.map (·.icon)) :
    uri ∈ keywordIcons := by
  obtain ⟨D, hread, hmeans⟩ := Source.means_of_parse h
  obtain ⟨n, hn, hicon⟩ := List.mem_map.mp hm
  obtain ⟨n₀, hn₀, hsame⟩ := exists_of_forall₂ hmoved.nodes hn
  rw [hsame] at hicon
  obtain ⟨slot, hslot, rfl⟩ := List.mem_map.mp hn₀
  rw [hmeans.slots] at hslot
  obtain ⟨id, -, rfl⟩ := List.mem_map.mp hslot
  exact icon_recordOf hread hicon

theorem unclashing_of_parse {text : List Char} {g₀ : Graph} (h : Source.parse text = .ok g₀)
    (hmoved : g₀.OnlyMoved g) : Unclashing (g.nodes.map (·.icon)) := by
  intro uri uri' hm hm' hclash
  exact keywordIcons_unclashing uri (icon_of_parse h hmoved hm) uri' (icon_of_parse h hmoved hm')
    (Symbol.hash_eq_iff.mpr hclash)

/-! ### Documents with icons -/

/-- Two nodes with icons of their own. -/
def iconGraph (uri uri' : String) : Graph where
  slots := [
    ⟨.text "A", { Node.ofId (.text "A") with icon := .text uri, x := .whole 0, y := .whole 0 }⟩,
    ⟨.text "B", { Node.ofId (.text "B") with icon := .text uri', x := .whole 100, y := .whole 0 }⟩]

def square : List Char := "<svg viewBox=\"0 0 10 10\"><path d=\"M0 0h10v10z\"/></svg>".toList

def circle : List Char := "<svg viewBox=\"0 0 10 10\"><circle cx=\"5\" cy=\"5\" r=\"5\"/></svg>".toList

/-- A square under the one name and a circle under the other. -/
def iconWorld (uri uri' : String) : Icon.World where
  files := [(uri.toList, Text.Utf8.encode square), (uri'.toList, Text.Utf8.encode circle)]

/-- An address that gives an icon has its symbol. -/
theorem symbol_of_fetch {uri : String} {svg : List Char} {symbols : List (Json × Symbol)}
    (h : Icon.Gathers world uris symbols) (hgiven : Json.isGiven (.text uri) = true) (hm : .text uri ∈ uris)
    (hsvg : (Icon.fetch world (.text uri)).toOption = some svg) :
    (.text uri, Symbol.ofSvg svg (Symbol.idOf uri.toList)) ∈ symbols := by
  rcases h.complete _ hm hgiven with ⟨s, hs⟩ | ⟨name, reason, hfail⟩
  · obtain ⟨t, svg', htext, hfetch, hmade⟩ := h.made _ hs
    cases htext
    rw [hfetch] at hsvg
    cases hsvg
    change s = _ at hmade
    rw [← hmade]
    exact hs
  · rw [hfail] at hsvg
    cases hsvg

end NodeLink.Svg
