import NodeLink.Proofs.Svg.PlainTexts

/-!
# What a drawing is written from

Markup comes of a function only where each value in it could be written. For each function one lemma says which
values these are and what is made of them, so that no other proof has to take the function apart.
-/

namespace NodeLink

open Value (plain_compact)

/-- A value that is written as text is a text, and these are its characters. -/
theorem Json.written?_eq_ok {value : Json} {cs : List Char} (h : value.written? = .ok cs) :
    ∃ s, value = .text s ∧ cs = s.toList := by
  obtain ⟨s, hs, h⟩ := bind_eq_ok h
  cases h
  cases value with
  | text =>
    cases hs
    exact ⟨s, rfl, rfl⟩
  | _ => cases hs

namespace Caption

variable {text color : Json} {fontSize : Value} {pathId : List Char} {m : Markup}

theorem fontAttrs_eq_ok {attrs : List Attr} (h : fontAttrs color fontSize = .ok attrs) :
    ∃ fill size, color.written? = .ok fill ∧ Plain size ∧
      attrs = [.ofText "fill" fill, .ofPlain "font-size" size, .ofPlain "font-family" fontFamily] := by
  obtain ⟨fill, hfill, h⟩ := bind_eq_ok h
  obtain ⟨size, hsize, h⟩ := bind_eq_ok h
  cases h
  exact ⟨fill, size, hfill, plain_compact hsize, rfl⟩

theorem turnedMarkup_eq_ok {angle : Value} {p : Point Value} (h : turnedMarkup text color fontSize angle p = .ok m) :
    ∃ x y turn font cs, Plain x ∧ Plain y ∧ Plain turn ∧ fontAttrs color fontSize = .ok font ∧
      text.written? = .ok cs ∧
      m = .element "text".toList
        ([.ofPlain "x" x, .ofPlain "y" y, .ofPlain "text-anchor" "middle".toList,
          .ofPlain "dominant-baseline" "middle".toList, .ofPlain "transform" turn] ++ font) [.text cs] := by
  obtain ⟨x, hx, h⟩ := bind_eq_ok h
  obtain ⟨y, hy, h⟩ := bind_eq_ok h
  obtain ⟨angle, ha, h⟩ := bind_eq_ok h
  obtain ⟨font, hfont, h⟩ := bind_eq_ok h
  obtain ⟨cs, hcs, h⟩ := bind_eq_ok h
  cases h
  have hturn := plain_turnText (plain_compact ha) (plain_compact hx) (plain_compact hy)
  exact ⟨x, y, _, font, cs, plain_compact hx, plain_compact hy, hturn, hfont, hcs, rfl⟩

theorem followingMarkup_eq_ok (h : followingMarkup text color pathId fontSize = .ok m) :
    ∃ font cs, fontAttrs color fontSize = .ok font ∧ text.written? = .ok cs ∧
      m = .element "text".toList font
        [.element "textPath".toList
          [.ofPlain "href" ('#' :: pathId), .ofPlain "startOffset" "50%".toList,
            .ofPlain "text-anchor" "middle".toList, .ofPlain "dominant-baseline" "central".toList]
          [.text cs]] := by
  obtain ⟨font, hfont, h⟩ := bind_eq_ok h
  obtain ⟨cs, hcs, h⟩ := bind_eq_ok h
  cases h
  exact ⟨font, cs, hfont, hcs, rfl⟩

theorem pathMarkup_eq_ok {c : Curve Value} (h : pathMarkup pathId c = .ok m) :
    ∃ data, Plain data ∧ m = .empty "path".toList [.ofPlain "id" pathId, .ofPlain "d" data] true := by
  obtain ⟨data, hdata, h⟩ := bind_eq_ok h
  cases h
  exact ⟨data, Path.plain_shortened hdata, rfl⟩

theorem draw_eq_ok {placed : Placed Value} {d : DrawnCaption} (h : draw placed text color pathId = .ok d) :
    (∃ angle m, turnedMarkup text color placed.fontSize angle placed.around.centre = .ok m ∧
      d = ⟨m, none, placed.around⟩) ∨
    ∃ curve m path, followingMarkup text color pathId placed.fontSize = .ok m ∧
      pathMarkup pathId curve = .ok path ∧ d = ⟨m, some path, placed.around⟩ := by
  unfold draw at h
  split at h
  · obtain ⟨m, hm, h⟩ := bind_eq_ok h
    cases h
    exact .inl ⟨_, m, hm, rfl⟩
  · obtain ⟨path, hpath, h⟩ := bind_eq_ok h
    obtain ⟨m, hm, h⟩ := bind_eq_ok h
    cases h
    exact .inr ⟨_, m, path, hm, hpath, rfl⟩

theorem standingMarkup_eq_ok {p : Point Value} (h : standingMarkup text fontSize p = .ok m) :
    ∃ x y size cs, Plain x ∧ Plain y ∧ Plain size ∧ text.written? = .ok cs ∧
      m = .element "text".toList
        [.ofPlain "x" x, .ofPlain "y" y, .ofPlain "font-size" size, .ofPlain "fill" "black".toList,
          .ofPlain "dominant-baseline" "middle".toList] [.text cs] := by
  obtain ⟨x, hx, h⟩ := bind_eq_ok h
  obtain ⟨y, hy, h⟩ := bind_eq_ok h
  obtain ⟨size, hsize, h⟩ := bind_eq_ok h
  obtain ⟨cs, hcs, h⟩ := bind_eq_ok h
  cases h
  exact ⟨x, y, size, cs, plain_compact hx, plain_compact hy, plain_compact hsize, hcs, rfl⟩

theorem nodeMarkup_eq_ok {style : Style Value} {disc : Disc Value} {scale : Value} {ms : List Markup}
    (h : nodeMarkup style disc text scale = .ok ms) :
    ofNode? style disc text scale = .ok none ∧ ms = [] ∨
      ∃ size p m, ofNode? style disc text scale = .ok (some (size, p)) ∧ standingMarkup text size p = .ok m ∧
        ms = [m] := by
  obtain ⟨place, hplace, h⟩ := bind_eq_ok h
  cases place with
  | none =>
    cases h
    exact .inl ⟨hplace, rfl⟩
  | some place =>
    obtain ⟨m, hm, h⟩ := bind_eq_ok h
    cases h
    exact .inr ⟨_, _, m, hplace, hm, rfl⟩

end Caption

namespace Icon

variable {d : Disc Value} {m : Markup}

theorem boxAttrs_eq_ok {b : Box Value} {attrs : List Attr} (h : boxAttrs b = .ok attrs) :
    ∃ x y width height, Plain x ∧ Plain y ∧ Plain width ∧ Plain height ∧
      attrs = [.ofPlain "x" x, .ofPlain "y" y, .ofPlain "width" width, .ofPlain "height" height] := by
  obtain ⟨x, hx, h⟩ := bind_eq_ok h
  obtain ⟨y, hy, h⟩ := bind_eq_ok h
  obtain ⟨width, hw, h⟩ := bind_eq_ok h
  obtain ⟨height, hh, h⟩ := bind_eq_ok h
  cases h
  exact ⟨x, y, width, height, plain_compact hx, plain_compact hy, plain_compact hw, plain_compact hh, rfl⟩

theorem useMarkup_eq_ok {s : Symbol} (h : useMarkup d s = .ok m) :
    ∃ b place, boxAttrs b = .ok place ∧ m = .empty "use".toList (.ofPlain "href" ('#' :: s.id) :: place) false := by
  obtain ⟨b, -, h⟩ := bind_eq_ok h
  obtain ⟨place, hplace, h⟩ := bind_eq_ok h
  cases h
  exact ⟨b, place, hplace, rfl⟩

theorem imageMarkup_eq_ok {icon : Json} (h : imageMarkup d icon = .ok m) :
    ∃ name area place, icon.written? = .ok name ∧ boxAttrs area = .ok place ∧
      m = .empty "image".toList
        (.ofText "href" name :: place ++ [.ofPlain "preserveAspectRatio" "xMidYMid meet".toList]) false := by
  obtain ⟨area, -, h⟩ := bind_eq_ok h
  obtain ⟨name, hname, h⟩ := bind_eq_ok h
  obtain ⟨place, hplace, h⟩ := bind_eq_ok h
  cases h
  have hwritten : icon.written? = .ok name.toList := bind_of_ok hname _
  exact ⟨name.toList, area, place, hwritten, hplace, rfl⟩

/-- The icon of a node is nothing, a reference to its symbol, or an image from outside. -/
theorem markup_eq_ok {icon : Json} {symbol : Option Symbol} {ms : List Markup} (h : markup d icon symbol = .ok ms) :
    icon.isGiven = false ∧ ms = [] ∨
      icon.isGiven = true ∧ ∃ m, ms = [m] ∧
        ((∃ s, symbol = some s ∧ useMarkup d s = .ok m) ∨ symbol = none ∧ imageMarkup d icon = .ok m) := by
  unfold markup at h
  split at h
  · rename_i hnot
    cases h
    exact .inl ⟨by simpa using hnot, rfl⟩
  · rename_i hgiven
    refine .inr ⟨by simpa using hgiven, ?_⟩
    cases symbol with
    | some s =>
      obtain ⟨m, hm, h⟩ := bind_eq_ok h
      cases h
      exact ⟨m, rfl, .inl ⟨s, rfl, hm⟩⟩
    | none =>
      obtain ⟨m, hm, h⟩ := bind_eq_ok h
      cases h
      exact ⟨m, rfl, .inr ⟨rfl, hm⟩⟩

end Icon

/-- Where nothing was loaded there is no symbol. -/
theorem Icon.symbol?_empty (uri : Json) (s : Symbol) : Icon.Loaded.symbol? {} uri ≠ .ok (some s) := by
  intro h
  obtain ⟨key, -, h⟩ := bind_eq_ok h
  cases h

namespace Svg

variable {style : Style Value} {scale : Value}

/-! ### Nodes and edges -/

theorem edgePath_eq_ok {color : Json} {o : Outline Value} {m : Markup} (h : edgePath style color o = .ok m) :
    ∃ data fill, Plain data ∧ color.written? = .ok fill ∧
      m = .empty "path".toList [.ofPlain "d" data, .ofText "fill" fill] true := by
  unfold edgePath at h
  obtain ⟨data, hdata, h⟩ := branch_eq_ok h
  obtain ⟨fill, hfill, h⟩ := bind_eq_ok h
  cases h
  refine ⟨data, fill, ?_, hfill, rfl⟩
  split at hdata
  · exact Path.plain_shortened hdata
  · exact Path.plain_text hdata

theorem edgeCaption?_eq_ok {d : DrawnEdge Value} {c? : Option DrawnCaption} (h : edgeCaption? style scale d = .ok c?) :
    d.caption? style scale = .ok none ∧ c? = none ∨
      ∃ placed c, d.caption? style scale = .ok (some placed) ∧
        Caption.draw placed d.edge.label d.edge.color (captionPathId d.edge.index) = .ok c ∧ c? = some c := by
  obtain ⟨placed, hplaced, h⟩ := bind_eq_ok h
  cases placed with
  | none =>
    cases h
    exact .inl ⟨hplaced, rfl⟩
  | some placed =>
    obtain ⟨c, hc, h⟩ := bind_eq_ok h
    cases h
    exact .inr ⟨placed, c, hplaced, hc, rfl⟩

theorem edgeParts_eq_ok {d : DrawnEdge Value} {layer : EdgeLayer} (h : edgeParts style scale d = .ok layer) :
    ∃ outline, d.outline style = .ok outline ∧
      (outline.isEmpty = true ∧ layer = ⟨[], []⟩ ∨
        outline.isEmpty = false ∧ ∃ path c?, edgePath style d.edge.color outline = .ok path ∧
          edgeCaption? style scale d = .ok c? ∧ layer = ⟨[path], c?.toList⟩) := by
  obtain ⟨outline, ho, h⟩ := bind_eq_ok h
  refine ⟨outline, ho, ?_⟩
  split at h
  · rename_i hempty
    cases h
    exact .inl ⟨hempty, rfl⟩
  · rename_i hsome
    obtain ⟨path, hpath, h⟩ := bind_eq_ok h
    obtain ⟨c?, hc, h⟩ := bind_eq_ok h
    cases h
    exact .inr ⟨by simpa using hsome, path, c?, hpath, hc, rfl⟩

theorem nodeIcon_eq_ok {loaded : Icon.Loaded} {n : SceneNode Value} {ms : List Markup}
    (h : nodeIcon loaded n = .ok ms) :
    n.icon.isGiven = false ∧ ms = [] ∨
      n.icon.isGiven = true ∧ ∃ symbol m, loaded.symbol? n.icon = .ok symbol ∧ ms = [m] ∧
        ((∃ s, symbol = some s ∧ Icon.useMarkup n.disc s = .ok m) ∨
          symbol = none ∧ Icon.imageMarkup n.disc n.icon = .ok m) := by
  unfold nodeIcon at h
  split at h
  · rename_i hgiven
    obtain ⟨symbol, hsymbol, h⟩ := bind_eq_ok h
    obtain ⟨hnot, -⟩ | ⟨-, m, hms, hm⟩ := Icon.markup_eq_ok h
    · rw [hgiven] at hnot
      cases hnot
    · exact .inr ⟨hgiven, symbol, m, hsymbol, hms, hm⟩
  · rename_i hnot
    cases h
    exact .inl ⟨by simpa using hnot, rfl⟩

theorem nodeCircle_eq_ok {n : SceneNode Value} {m : Markup} (h : nodeCircle n = .ok m) :
    ∃ x y radius fill, Plain x ∧ Plain y ∧ Plain radius ∧ n.fill.written? = .ok fill ∧
      m = .empty "circle".toList
        [.ofPlain "cx" x, .ofPlain "cy" y, .ofPlain "r" radius, .ofText "fill" fill,
          .ofPlain "stroke" "none".toList] false := by
  obtain ⟨x, hx, h⟩ := bind_eq_ok h
  obtain ⟨y, hy, h⟩ := bind_eq_ok h
  obtain ⟨radius, hr, h⟩ := bind_eq_ok h
  obtain ⟨fill, hfill, h⟩ := bind_eq_ok h
  cases h
  exact ⟨x, y, radius, fill, plain_compact hx, plain_compact hy, plain_compact hr, hfill, rfl⟩

theorem nodeMarkup_eq_ok {loaded : Icon.Loaded} {n : SceneNode Value} {m : Markup}
    (h : nodeMarkup style loaded scale n = .ok m) :
    ∃ id circle icon caption, n.id.written? = .ok id ∧ nodeCircle n = .ok circle ∧ nodeIcon loaded n = .ok icon ∧
      Caption.nodeMarkup style n.disc n.label scale = .ok caption ∧
      m = .element "g".toList [.ofPlain "class" "node".toList, .ofText "data-node-id" id]
        (circle :: icon ++ caption) := by
  obtain ⟨id, hid, h⟩ := bind_eq_ok h
  obtain ⟨circle, hcircle, h⟩ := bind_eq_ok h
  obtain ⟨icon, hicon, h⟩ := bind_eq_ok h
  obtain ⟨caption, hcaption, h⟩ := bind_eq_ok h
  cases h
  exact ⟨id, circle, icon, caption, hid, hcircle, hicon, hcaption, rfl⟩

/-! ### The document -/

theorem background_eq_ok {color : Json} {b : Box Value} {ms : List Markup} (h : background color b = .ok ms) :
    isVisible color = false ∧ ms = [] ∨
      isVisible color = true ∧ ∃ place fill, Icon.boxAttrs b = .ok place ∧ color.written? = .ok fill ∧
        ms = [.empty "rect".toList (place ++ [.ofText "fill" fill]) true] := by
  unfold background at h
  split at h
  · rename_i hvisible
    obtain ⟨place, hplace, h⟩ := bind_eq_ok h
    obtain ⟨fill, hfill, h⟩ := bind_eq_ok h
    cases h
    exact .inr ⟨hvisible, place, fill, hplace, hfill, rfl⟩
  · rename_i hnot
    cases h
    exact .inl ⟨by simpa using hnot, rfl⟩

theorem document_eq_ok {b : Box Value} {edges : EdgeLayer} {nodes : List Markup} {m : Markup}
    (h : document style b edges nodes = .ok m) :
    ∃ width height viewBox behind, Plain width ∧ Plain height ∧ Plain viewBox ∧
      background style.background b = .ok behind ∧
      m = .block "svg"
        [.ofPlain "width" width, .ofPlain "height" height, .ofPlain "viewBox" viewBox,
          .ofPlain "xmlns" "http://www.w3.org/2000/svg".toList,
          .ofPlain "xmlns:xlink" "http://www.w3.org/1999/xlink".toList,
          .ofPlain "style" "font-family:Arial, sans-serif;".toList]
        (behind ++
          [layer "edges" edges.paths,
            layer "labels" (captionDefs edges.captions ++ edges.captions.map (·.text)),
            layer "nodes" nodes]) := by
  obtain ⟨width, hw, h⟩ := bind_eq_ok h
  obtain ⟨height, hh, h⟩ := bind_eq_ok h
  obtain ⟨viewBox, hv, h⟩ := bind_eq_ok h
  obtain ⟨behind, hb, h⟩ := bind_eq_ok h
  cases h
  exact ⟨width, height, viewBox, behind, plain_compact hw, plain_compact hh, Box.plain_viewBoxText hv, hb, rfl⟩

/-! ### The rendering -/

variable {renderers : Renderers} {world : Icon.World} {s : Scene Value}

theorem frame_eq_ok {clipped : List (ClippedEdge Value)} {framed : Framed}
    (h : frame style renderers s clipped = .ok framed) :
    ∃ drawn extent base, Scene.drawn clipped = .ok drawn ∧ s.extent drawn = .ok extent ∧
      extent.box style.padding = .ok base ∧
      Caption.viewportScale base.width base.height style.referenceSize = .ok framed.scale ∧
      (renderers.edges.getD (edgeLayer style)) drawn framed.scale = .ok framed.edges := by
  obtain ⟨drawn, hd, h⟩ := bind_eq_ok h
  obtain ⟨extent, hextent, h⟩ := bind_eq_ok h
  obtain ⟨base, hbase, h⟩ := bind_eq_ok h
  obtain ⟨scale, hscale, h⟩ := bind_eq_ok h
  obtain ⟨edges, he, h⟩ := bind_eq_ok h
  obtain ⟨around, -, h⟩ := bind_eq_ok h
  obtain ⟨box, -, h⟩ := bind_eq_ok h
  cases h
  exact ⟨drawn, extent, base, hd, hextent, hbase, hscale, he⟩

/-- The nodes are written one by one, after the symbols that were loaded for them. -/
theorem writeNodes_eq_ok {nodes : List Markup} {loaded : Icon.Loaded}
    (h : writeNodes style world {} s scale = .ok (nodes, loaded)) :
    ∃ groups, loadIcons style world s = .ok loaded ∧
      List.Forall₂ (fun n m => nodeMarkup style loaded scale n = .ok m) s.nodes groups ∧
      nodes = symbolDefs loaded.symbols ++ groups := by
  obtain ⟨found, hload, h⟩ := bind_eq_ok h
  obtain ⟨layer, hlayer, h⟩ := bind_eq_ok h
  cases h
  obtain ⟨groups, hgroups, hlayer⟩ := bind_eq_ok hlayer
  cases hlayer
  exact ⟨groups, hload, mapM_eq_ok hgroups, rfl⟩

/-- How a drawing comes about: the edges of its graph are fanned out, the scene is framed, the nodes are written, and
the document holds both. -/
structure RenderedFrom (g : Graph) (o : Options) (world : Icon.World) (renderers : Renderers) (drawn : Rendering)
    (framed : Framed) (written : List Markup × Icon.Loaded) (m : Markup) : Prop where
  fanned : g.fanOutEdges = .ok drawn.graph
  frames : frame o.style renderers (drawn.graph.scene o.style) ((drawn.graph.scene o.style).clipped o.style) =
    .ok framed
  nodes : writeNodes o.style world renderers (drawn.graph.scene o.style) framed.scale = .ok written
  document : document o.style framed.box framed.edges written.1 = .ok m
  svg : drawn.svg = String.ofList m.write
  left : (render g o world renderers).graph = drawn.graph

theorem render_eq_ok {g : Graph} {o : Options} {drawn : Rendering} (h : (render g o world renderers).result = .ok drawn) :
    ∃ framed written m, RenderedFrom g o world renderers drawn framed written m := by
  cases hfan : g.fanOutEdges with
  | error fault =>
    simp only [render, hfan] at h
    cases h
  | ok d =>
    cases hscene : renderScene d o.style world renderers (d.scene o.style) ((d.scene o.style).clipped o.style) with
    | error fault =>
      simp only [render, hfan, hscene] at h
      cases h
    | ok drawing =>
      have hleft : (render g o world renderers).graph = d := by
        simp only [render, hfan, hscene]
      simp only [render, hfan, hscene] at h
      cases h
      obtain ⟨framed, hframed, hscene⟩ := bind_eq_ok hscene
      obtain ⟨written, hnodes, hscene⟩ := bind_eq_ok hscene
      obtain ⟨m, hm, hscene⟩ := bind_eq_ok hscene
      cases hscene
      exact ⟨framed, written, m, hfan, hframed, hnodes, hm, rfl, hleft⟩

end Svg
end NodeLink
