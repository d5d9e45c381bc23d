import NodeLink.Proofs.Drawing.Fans
import NodeLink.Proofs.Svg.Elements

/-!
# The layers of a drawing

The edges of a scene are edges of its graph, in order and each under its place there. Every edge that has an
outline is drawn as a path of its colour, some have captions, and the paths that captions follow are named for
the places of their edges.
-/

namespace NodeLink

variable {style : Style Value}

/-- The colour that an edge is drawn in. -/
def edgeColor (style : Style Value) (e : Edge) : Json :=
  e.color.orElse (style.edgeColor.orElse (.text "currentColor"))

namespace Graph

/-- Fanning out the edges leaves everything else as it is. -/
theorem fanOutEdges_eq_ok {g g' : Graph} (h : g.fanOutEdges = .ok g') :
    g'.slots = g.slots ∧ List.Forall₂ Edge.Bent g.edges g'.edges := by
  obtain ⟨edges, he, h⟩ := bind_eq_ok h
  cases h
  exact ⟨rfl, bent_fanned he⟩

/-- An edge of a scene that was made of an edge of the list, which begins at the given place. -/
structure Stems (style : Style Value) (first : Nat) (edges : List Edge) (s : SceneEdge Value) : Prop where
  first_le : first ≤ s.index
  edge : ∃ e, edges[s.index - first]? = some e ∧ s.label = e.label ∧ s.color = edgeColor style e

theorem Stems.later {first : Nat} {e : Edge} {edges : List Edge} {s : SceneEdge Value}
    (h : Stems style (first + 1) edges s) : Stems style first (e :: edges) s := by
  obtain ⟨hle, e', he, hsame⟩ := h
  have hplace : s.index - first = s.index - (first + 1) + 1 := by omega
  exact ⟨by omega, e', by rw [hplace, List.getElem?_cons_succ, he], hsame⟩

theorem stems_sceneEdge? {g : Graph} {i : Nat} {e : Edge} {s : SceneEdge Value} (edges : List Edge)
    (h : g.sceneEdge? style i e = some s) : s.index = i ∧ Stems style i (e :: edges) s := by
  obtain ⟨source, -, h⟩ := Option.bind_eq_some_iff.mp h
  obtain ⟨target, -, h⟩ := Option.bind_eq_some_iff.mp h
  cases h
  exact ⟨rfl, Nat.le_refl i, e, by simp [sceneEdge], rfl, rfl⟩

theorem stems_sceneEdgesFrom (g : Graph) (i : Nat) (edges : List Edge) :
    (∀ s ∈ sceneEdgesFrom g style i edges, Stems style i edges s) ∧
      ((sceneEdgesFrom g style i edges).map (·.index)).Pairwise (· < ·) := by
  induction edges generalizing i with
  | nil =>
    simp [sceneEdgesFrom]
  | cons e rest ih =>
    obtain ⟨hstems, hsorted⟩ := ih (i + 1)
    have hlater : ∀ s ∈ sceneEdgesFrom g style (i + 1) rest, Stems style i (e :: rest) s :=
      fun s hs => (hstems s hs).later
    unfold sceneEdgesFrom
    cases hmade : g.sceneEdge? style i e with
    | none => exact ⟨hlater, hsorted⟩
    | some s =>
      obtain ⟨hi, hs⟩ := stems_sceneEdge? rest hmade
      refine ⟨List.forall_mem_cons.mpr ⟨hs, hlater⟩, List.pairwise_cons.mpr ⟨?_, hsorted⟩⟩
      intro j hj
      obtain ⟨t, ht, rfl⟩ := List.mem_map.mp hj
      have hle := (hstems t ht).first_le
      change s.index < t.index
      omega

end Graph

theorem ClippedEdge.drawn?_eq_ok {c : ClippedEdge Value} {d? : Option (DrawnEdge Value)}
    (h : c.drawn? = .ok d?) : d? = none ∨ ∃ d, d? = some d ∧ d.edge = c.edge := by
  obtain ⟨line, -, h⟩ := bind_eq_ok h
  cases h
  cases line with
  | none => exact .inl rfl
  | some line => exact .inr ⟨_, rfl, rfl⟩

/-- Drawn edges keep the order of the scene. -/
theorem Scene.drawn_sublist {s : Scene Value} {drawn : List (DrawnEdge Value)}
    (h : Scene.drawn (s.clipped style) = .ok drawn) : (drawn.map (·.edge)).Sublist s.edges := by
  obtain ⟨found, hfound, h⟩ := bind_eq_ok h
  cases h
  have hall := mapM_eq_ok hfound
  have hedges : (s.clipped style).map (·.edge) = s.edges := by simp [clipped, Function.comp_def]
  rw [← hedges]
  generalize s.clipped style = edges at hall
  clear * - hall
  induction hall with
  | nil => exact .slnil
  | cons hc _ ih =>
    obtain rfl | ⟨d, rfl, hd⟩ := ClippedEdge.drawn?_eq_ok hc
    · exact ih.cons _
    · rw [List.filterMap_cons_some (f := id) rfl, List.map_cons, List.map_cons, hd]
      exact ih.cons_cons _

/-- Drawn edges are edges of the scene, and their places in the graph go up. -/
theorem Scene.drawn_places {g : Graph} {drawn : List (DrawnEdge Value)}
    (h : Scene.drawn ((g.scene style).clipped style) = .ok drawn) :
    (∀ d ∈ drawn, d.edge ∈ (g.scene style).edges) ∧ (drawn.map (·.edge.index)).Pairwise (· < ·) := by
  have hkept := Scene.drawn_sublist h
  refine ⟨fun d hd => hkept.subset (List.mem_map_of_mem hd), ?_⟩
  have hplaces := hkept.map (·.index)
  rw [List.map_map] at hplaces
  exact (Graph.stems_sceneEdgesFrom g 0 g.edges).2.sublist hplaces

namespace Svg

/-- Whether anything of an edge is drawn. -/
def hasOutline (style : Style Value) (d : DrawnEdge Value) : Bool :=
  match d.outline style with
  | .ok outline => !outline.isEmpty
  | .error _ => false

/-- Whether the caption of an edge is shown at a scale. -/
def hasCaption (style : Style Value) (scale : Value) (d : DrawnEdge Value) : Bool :=
  match d.caption? style scale with
  | .ok placed => placed.isSome
  | .error _ => false

/-- What the caption of an edge is read as. -/
def DrawnFor (d : DrawnEdge Value) (c : DrawnCaption) : Prop :=
  d.edge.label.isGiven = true ∧ Caption.Drawn d.edge.label d.edge.color (captionPathId d.edge.index) c

theorem edgeCaption?_gives {scale : Value} {d : DrawnEdge Value} {c? : Option DrawnCaption}
    (h : edgeCaption? style scale d = .ok c?) :
    hasCaption style scale d = false ∧ c? = none ∨
      hasCaption style scale d = true ∧ ∃ c, c? = some c ∧ DrawnFor d c := by
  obtain ⟨hplaced, rfl⟩ | ⟨placed, c, hplaced, hc, rfl⟩ := edgeCaption?_eq_ok h
  · rw [hasCaption, hplaced]
    exact .inl ⟨rfl, rfl⟩
  · rw [hasCaption, hplaced]
    exact .inr ⟨rfl, c, rfl, Caption.isGiven_of_place? hplaced, Caption.draw_gives (plain_captionPathId _) hc⟩

theorem edgeParts_gives {scale : Value} {d : DrawnEdge Value} {layer : EdgeLayer}
    (h : edgeParts style scale d = .ok layer) :
    hasOutline style d = false ∧ layer = ⟨[], []⟩ ∨
      hasOutline style d = true ∧ ∃ m p c?, layer = ⟨[m], Option.toList c?⟩ ∧ m.Gives p ∧
        IsEdgePath d.edge.color p ∧ edgeCaption? style scale d = .ok c? := by
  obtain ⟨outline, ho, ⟨hempty, rfl⟩ | ⟨hsome, m, c?, hm, hc, rfl⟩⟩ := edgeParts_eq_ok h
  · exact .inl ⟨by simp [hasOutline, ho, hempty], rfl⟩
  · obtain ⟨p, hp, hpath⟩ := edgePath_gives hm
    exact .inr ⟨by simp [hasOutline, ho, hsome], m, p, c?, rfl, hp, hpath, hc⟩

/-- What a layer of edges is read as, given the edges that have an outline and those that have a caption. -/
structure Layered (shown captioned : List (DrawnEdge Value)) (layer : EdgeLayer) (paths : List Piece) :
    Prop where
  gives : List.Forall₂ Markup.Gives layer.paths paths
  paths : List.Forall₂ (fun d p => IsEdgePath d.edge.color p) shown paths
  captions : List.Forall₂ DrawnFor captioned layer.captions

theorem edgeLayer_gives {scale : Value} {drawn : List (DrawnEdge Value)} {layer : EdgeLayer}
    (h : edgeLayer style drawn scale = .ok layer) :
    ∃ paths, Layered (drawn.filter (hasOutline style))
      ((drawn.filter (hasOutline style)).filter (hasCaption style scale)) layer paths := by
  obtain ⟨parts, hparts, h⟩ := bind_eq_ok h
  cases h
  have hall := mapM_eq_ok hparts
  clear * - hall
  induction hall with
  | nil => exact ⟨[], .nil, .nil, .nil⟩
  | @cons d part drawn parts hd _ ih =>
    obtain ⟨paths, hgives, hpaths, hcaptions⟩ := ih
    obtain ⟨hnone, rfl⟩ | ⟨hsome, m, p, c?, rfl, hp, hpath, hc⟩ := edgeParts_gives hd
    · rw [List.filter_cons_of_neg (by simp [hnone])]
      exact ⟨paths, hgives, hpaths, hcaptions⟩
    · rw [List.filter_cons_of_pos hsome]
      refine ⟨p :: paths, .cons hp hgives, .cons hpath hpaths, ?_⟩
      obtain ⟨hcaption, rfl⟩ | ⟨hcaption, c, rfl, hdrawn⟩ := edgeCaption?_gives hc
      · rw [List.filter_cons_of_neg (by simp [hcaption])]
        exact hcaptions
      · rw [List.filter_cons_of_pos hcaption]
        exact .cons hdrawn hcaptions

/-- The caption of an edge: beside it, or along a path whose id is among the given ones. -/
def IsEdgeCaption (label color : Json) (ids : List (List Char)) (pathId : List Char) (p : Piece) : Prop :=
  IsTurnedCaption label color p ∨ pathId ∈ ids ∧ IsFollowingCaption label color pathId p

/-- What the captions of edges are read as, with the ids of the paths that they follow. -/
structure Captioned (captioned : List (DrawnEdge Value)) (captions : List DrawnCaption) (ids : List (List Char))
    (texts paths : List Piece) : Prop where
  givesTexts : List.Forall₂ Markup.Gives (captions.map (·.text)) texts
  texts : List.Forall₂ (fun d p => d.edge.label.isGiven = true ∧
    IsEdgeCaption d.edge.label d.edge.color ids (captionPathId d.edge.index) p) captioned texts
  sublist : ids.Sublist (captioned.map fun d => captionPathId d.edge.index)
  givesPaths : List.Forall₂ Markup.Gives (captions.filterMap (·.defs)) paths
  paths : List.Forall₂ IsCaptionPath ids paths

theorem captions_give {captioned : List (DrawnEdge Value)} {captions : List DrawnCaption}
    (h : List.Forall₂ DrawnFor captioned captions) :
    ∃ ids texts paths, Captioned captioned captions ids texts paths := by
  induction h with
  | nil => exact ⟨[], [], [], .nil, .nil, .slnil, .nil, .nil⟩
  | @cons d c captioned captions hd _ ih =>
    obtain ⟨ids, texts, paths, hgt, htexts, hids, hgp, hpaths⟩ := ih
    obtain ⟨hgiven, ⟨p, hp, hnone, hturned⟩ | ⟨p, m, q, hp, hsome, hq, hfollowing, hpath⟩⟩ := hd
    · refine ⟨ids, p :: texts, paths, .cons hp hgt, .cons ⟨hgiven, .inl hturned⟩ htexts, hids.cons _, ?_,
        hpaths⟩
      rw [List.filterMap_cons_none hnone]
      exact hgp
    · have hmore := htexts.imp fun d' p hd' => And.imp_right
        (Or.imp_right (And.imp_left (List.mem_cons_of_mem (captionPathId d.edge.index)))) hd'
      refine ⟨captionPathId d.edge.index :: ids, p :: texts, q :: paths, .cons hp hgt,
        .cons ⟨hgiven, .inr ⟨List.mem_cons_self, hfollowing⟩⟩ hmore, hids.cons_cons _, ?_, .cons hpath hpaths⟩
      rw [List.filterMap_cons_some hsome]
      exact .cons hq hgp

end Svg
end NodeLink
