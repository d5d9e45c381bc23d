import NodeLink.Proofs.Svg.Trees
import NodeLink.Proofs.Svg.Written

/-!
# The elements of a drawing

What paths, captions and nodes are read back as. Of each the whole element is given, its attributes and what
stands in it, with numbers left open; values that come from a diagram stand for what the diagram holds.
-/

namespace NodeLink

open Piece (tag)
open Attr (gives_ofPlain gives_ofText gives_fixed)
open Markup (gives_empty gives_element gives_text)

/-- Written text that stands for a text value. -/
def Spells (written : List Char) (value : Json) : Prop := ∃ s, value = .text s ∧ decode written = s.toList

theorem spells_of_written? {value : Json} {cs : List Char} (h : value.written? = .ok cs) :
    Spells (escapeXml cs) value := by
  obtain ⟨s, rfl, rfl⟩ := Json.written?_eq_ok h
  exact ⟨s, rfl, decode_escapeXml s.toList⟩

/-- The path of an edge. -/
def IsEdgePath (color : Json) (p : Piece) : Prop :=
  ∃ data fill, p = tag "path" [("d", data), ("fill", fill)] [] ∧ Spells fill color

/-- A caption beside an edge. -/
def IsTurnedCaption (label color : Json) (p : Piece) : Prop :=
  ∃ x y turn fill size text,
    p = tag "text" [("x", x), ("y", y), ("text-anchor", "middle".toList),
      ("dominant-baseline", "middle".toList), ("transform", turn), ("fill", fill), ("font-size", size),
      ("font-family", Caption.fontFamily)]
      (Piece.ofRun text) ∧ Spells fill color ∧ Spells text label

/-- A caption along the path of the given id. -/
def IsFollowingCaption (label color : Json) (pathId : List Char) (p : Piece) : Prop :=
  ∃ fill size text,
    p = tag "text" [("fill", fill), ("font-size", size), ("font-family", Caption.fontFamily)]
      [tag "textPath" [("href", '#' :: pathId), ("startOffset", "50%".toList), ("text-anchor", "middle".toList),
        ("dominant-baseline", "central".toList)] (Piece.ofRun text)] ∧ Spells fill color ∧ Spells text label

/-- The path that a caption follows. -/
def IsCaptionPath (pathId : List Char) (p : Piece) : Prop :=
  ∃ data, p = tag "path" [("id", pathId), ("d", data)] []

/-- The circle of a node. -/
def IsCircle (color : Json) (p : Piece) : Prop :=
  ∃ x y radius fill,
    p = tag "circle" [("cx", x), ("cy", y), ("r", radius), ("fill", fill), ("stroke", "none".toList)] [] ∧
      Spells fill color

/-- The image of an icon, nothing if there is no icon. -/
def IsImage (icon : Json) (ps : List Piece) : Prop :=
  if icon.isGiven then
    ∃ href x y width height,
      ps = [tag "image" [("href", href), ("x", x), ("y", y), ("width", width), ("height", height),
        ("preserveAspectRatio", "xMidYMid meet".toList)] []] ∧ Spells href icon
  else ps = []

/-- The caption of a node, nothing if it is not shown. -/
def IsNodeCaption (shown : Bool) (label : Json) (ps : List Piece) : Prop :=
  if shown then
    label.isGiven = true ∧ ∃ x y size text,
      ps = [tag "text" [("x", x), ("y", y), ("font-size", size), ("fill", "black".toList),
        ("dominant-baseline", "middle".toList)] (Piece.ofRun text)] ∧ Spells text label
  else ps = []

/-- The group of a node: its circle, its icon and its caption. -/
def IsNodeGroup (id color icon label : Json) (shown : Bool) (p : Piece) : Prop :=
  ∃ written circle image caption,
    p = tag "g" [("class", "node".toList), ("data-node-id", written)] (circle :: image ++ caption) ∧
      Spells written id ∧ IsCircle color circle ∧ IsImage icon image ∧ IsNodeCaption shown label caption

/-- The rectangle behind everything, nothing if no colour is to be seen. -/
def IsBackground (color : Json) (ps : List Piece) : Prop :=
  if Svg.isVisible color then
    ∃ x y width height fill,
      ps = [tag "rect" [("x", x), ("y", y), ("width", width), ("height", height), ("fill", fill)] []] ∧
        Spells fill color
  else ps = []

namespace Svg

theorem edgePath_gives {style : Style Value} {color : Json} {o : Outline Value} {m : Markup}
    (h : edgePath style color o = .ok m) : ∃ p, m.Gives p ∧ IsEdgePath color p := by
  obtain ⟨data, fill, hdata, hfill, rfl⟩ := edgePath_eq_ok h
  have hattrs := List.Forall₂.cons (gives_ofPlain "d" (.ofList (by decide)) hdata) <|
    .cons (gives_ofText "fill" (.ofList (by decide)) fill) .nil
  exact ⟨_, gives_empty "path" (.ofList (by decide)) hattrs true, data, _, rfl, spells_of_written? hfill⟩

end Svg

namespace Caption

theorem fontAttrs_gives {color : Json} {fontSize : Value} {attrs : List Attr}
    (h : fontAttrs color fontSize = .ok attrs) :
    ∃ fill size, Spells fill color ∧
      List.Forall₂ Attr.Gives attrs [("fill", fill), ("font-size", size), ("font-family", fontFamily)] := by
  obtain ⟨fill, size, hfill, hsize, rfl⟩ := fontAttrs_eq_ok h
  exact ⟨escapeXml fill, size, spells_of_written? hfill,
    .cons (gives_ofText "fill" (.ofList (by decide)) fill) <|
    .cons (gives_ofPlain "font-size" (.ofList (by decide)) hsize) <|
    .cons (gives_fixed "font-family" _ (.ofList (by decide)) (.ofList (by decide))) .nil⟩

theorem turnedMarkup_gives {text color : Json} {fontSize angle : Value} {p : Point Value} {m : Markup}
    (h : turnedMarkup text color fontSize angle p = .ok m) : ∃ p, m.Gives p ∧ IsTurnedCaption text color p := by
  obtain ⟨x, y, turn, font, cs, hx, hy, hturn, hfont, hcs, rfl⟩ := turnedMarkup_eq_ok h
  obtain ⟨fill, size, hfill, hfont⟩ := fontAttrs_gives hfont
  have hplace := List.Forall₂.cons (gives_ofPlain "x" (.ofList (by decide)) hx) <|
    .cons (gives_ofPlain "y" (.ofList (by decide)) hy) <|
    .cons (gives_fixed "text-anchor" "middle" (.ofList (by decide)) (.ofList (by decide))) <|
    .cons (gives_fixed "dominant-baseline" "middle" (.ofList (by decide)) (.ofList (by decide))) <|
    .cons (gives_ofPlain "transform" (.ofList (by decide)) hturn) .nil
  have hcaption := gives_text "text" (.ofList (by decide)) (List.rel_append hplace hfont) cs
  exact ⟨_, hcaption, x, y, turn, fill, size, _, rfl, hfill, spells_of_written? hcs⟩

theorem followingMarkup_gives {text color : Json} {fontSize : Value} {pathId : List Char} {m : Markup}
    (hid : Plain pathId) (h : followingMarkup text color pathId fontSize = .ok m) :
    ∃ p, m.Gives p ∧ IsFollowingCaption text color pathId p := by
  obtain ⟨font, cs, hfont, hcs, rfl⟩ := followingMarkup_eq_ok h
  obtain ⟨fill, size, hfill, hfont⟩ := fontAttrs_gives hfont
  have hhref : Plain ('#' :: pathId) := plain_cons.mpr ⟨by decide, hid⟩
  have hpath := List.Forall₂.cons (gives_ofPlain "href" (.ofList (by decide)) hhref) <|
    .cons (gives_fixed "startOffset" "50%" (.ofList (by decide)) (.ofList (by decide))) <|
    .cons (gives_fixed "text-anchor" "middle" (.ofList (by decide)) (.ofList (by decide))) <|
    .cons (gives_fixed "dominant-baseline" "central" (.ofList (by decide)) (.ofList (by decide))) .nil
  have hinside := List.Forall₂.cons (gives_text "textPath" (.ofList (by decide)) hpath cs) .nil
  have hcaption := gives_element "text" (.ofList (by decide)) hfont hinside
  exact ⟨_, hcaption, fill, size, _, rfl, hfill, spells_of_written? hcs⟩

theorem pathMarkup_gives {pathId : List Char} {c : Curve Value} {m : Markup} (hid : Plain pathId)
    (h : pathMarkup pathId c = .ok m) : ∃ p, m.Gives p ∧ IsCaptionPath pathId p := by
  obtain ⟨data, hdata, rfl⟩ := pathMarkup_eq_ok h
  have hattrs := List.Forall₂.cons (gives_ofPlain "id" (.ofList (by decide)) hid) <|
    .cons (gives_ofPlain "d" (.ofList (by decide)) hdata) .nil
  exact ⟨_, gives_empty "path" (.ofList (by decide)) hattrs true, data, rfl⟩

/-- What a drawn caption is read as: it stands beside its edge, or follows a path of its own. -/
def Drawn (label color : Json) (pathId : List Char) (d : DrawnCaption) : Prop :=
  (∃ p, d.text.Gives p ∧ d.defs = none ∧ IsTurnedCaption label color p) ∨
    ∃ p m path, d.text.Gives p ∧ d.defs = some m ∧ m.Gives path ∧ IsFollowingCaption label color pathId p ∧
      IsCaptionPath pathId path

theorem draw_gives {placed : Placed Value} {text color : Json} {pathId : List Char} {d : DrawnCaption}
    (hid : Plain pathId) (h : draw placed text color pathId = .ok d) : Drawn text color pathId d := by
  obtain ⟨angle, m, hm, rfl⟩ | ⟨curve, m, path, hm, hpath, rfl⟩ := draw_eq_ok h
  · obtain ⟨p, hp, hcaption⟩ := turnedMarkup_gives hm
    exact .inl ⟨p, hp, rfl, hcaption⟩
  · obtain ⟨p, hp, hcaption⟩ := followingMarkup_gives hid hm
    obtain ⟨q, hq, hdata⟩ := pathMarkup_gives hid hpath
    exact .inr ⟨p, path, q, hp, rfl, hq, hcaption, hdata⟩

/-- A text that is not given has no place. -/
theorem isGiven_of_ofNode? {style : Style Value} {disc : Disc Value} {text : Json} {scale : Value}
    {place : Value × Point Value} (h : ofNode? style disc text scale = .ok (some place)) :
    text.isGiven = true := by
  by_contra hgiven
  rw [ofNode?, if_pos (by simpa using hgiven)] at h
  cases h

theorem isGiven_of_place? {style : Style Value} {c : Centreline Value} {text : Json} {thickness scale : Value}
    {placed : Placed Value} (h : place? style c text thickness scale = .ok (some placed)) :
    text.isGiven = true := by
  by_contra hgiven
  rw [place?, if_pos (by simpa using hgiven)] at h
  cases h

/-- Whether the caption of a node is shown at a scale. -/
def isShown (style : Style Value) (scale : Value) (disc : Disc Value) (text : Json) : Bool :=
  match ofNode? style disc text scale with
  | .ok place => place.isSome
  | .error _ => false

theorem standingMarkup_gives {text : Json} {fontSize : Value} {p : Point Value} {m : Markup}
    (hgiven : text.isGiven = true) (h : standingMarkup text fontSize p = .ok m) :
    ∃ q, m.Gives q ∧ IsNodeCaption true text [q] := by
  obtain ⟨x, y, size, cs, hx, hy, hsize, hcs, rfl⟩ := standingMarkup_eq_ok h
  have hattrs := List.Forall₂.cons (gives_ofPlain "x" (.ofList (by decide)) hx) <|
    .cons (gives_ofPlain "y" (.ofList (by decide)) hy) <|
    .cons (gives_ofPlain "font-size" (.ofList (by decide)) hsize) <|
    .cons (gives_fixed "fill" "black" (.ofList (by decide)) (.ofList (by decide))) <|
    .cons (gives_fixed "dominant-baseline" "middle" (.ofList (by decide)) (.ofList (by decide))) .nil
  have hcaption := gives_text "text" (.ofList (by decide)) hattrs cs
  exact ⟨_, hcaption, hgiven, x, y, size, _, rfl, spells_of_written? hcs⟩

theorem nodeMarkup_gives {style : Style Value} {disc : Disc Value} {text : Json} {scale : Value}
    {ms : List Markup} (h : nodeMarkup style disc text scale = .ok ms) :
    ∃ ps, List.Forall₂ Markup.Gives ms ps ∧ IsNodeCaption (isShown style scale disc text) text ps := by
  obtain ⟨hplace, rfl⟩ | ⟨size, p, m, hplace, hm, rfl⟩ := nodeMarkup_eq_ok h
  · rw [isShown, hplace]
    exact ⟨[], .nil, rfl⟩
  · rw [isShown, hplace]
    obtain ⟨q, hq, hcaption⟩ := standingMarkup_gives (isGiven_of_ofNode? hplace) hm
    exact ⟨[q], .cons hq .nil, hcaption⟩

end Caption

namespace Icon

theorem boxAttrs_gives {b : Box Value} {attrs : List Attr} (h : boxAttrs b = .ok attrs) :
    ∃ x y width height,
      List.Forall₂ Attr.Gives attrs [("x", x), ("y", y), ("width", width), ("height", height)] := by
  obtain ⟨x, y, width, height, hx, hy, hw, hh, rfl⟩ := boxAttrs_eq_ok h
  exact ⟨x, y, width, height, .cons (gives_ofPlain "x" (.ofList (by decide)) hx) <|
    .cons (gives_ofPlain "y" (.ofList (by decide)) hy) <|
    .cons (gives_ofPlain "width" (.ofList (by decide)) hw) <|
    .cons (gives_ofPlain "height" (.ofList (by decide)) hh) .nil⟩

theorem imageMarkup_gives {d : Disc Value} {icon : Json} {m : Markup} (hgiven : icon.isGiven = true)
    (h : imageMarkup d icon = .ok m) : ∃ p, m.Gives p ∧ IsImage icon [p] := by
  obtain ⟨name, area, place, hname, hplace, rfl⟩ := imageMarkup_eq_ok h
  obtain ⟨x, y, width, height, hbox⟩ := boxAttrs_gives hplace
  have hhref := gives_ofText "href" (.ofList (by decide)) name
  have hratio := gives_fixed "preserveAspectRatio" "xMidYMid meet" (.ofList (by decide)) (.ofList (by decide))
  have hattrs := List.rel_append (List.Forall₂.cons hhref hbox) (.cons hratio .nil)
  refine ⟨_, gives_empty "image" (.ofList (by decide)) hattrs false, ?_⟩
  rw [IsImage, if_pos hgiven]
  exact ⟨_, x, y, width, height, rfl, spells_of_written? hname⟩

end Icon

namespace Svg

/-- Without loaded symbols an icon is an image from outside. -/
theorem nodeIcon_gives {n : SceneNode Value} {ms : List Markup} (h : nodeIcon {} n = .ok ms) :
    ∃ ps, List.Forall₂ Markup.Gives ms ps ∧ IsImage n.icon ps := by
  obtain ⟨hnot, rfl⟩ | ⟨hgiven, symbol, m, hsymbol, rfl, ⟨s, rfl, -⟩ | ⟨rfl, hm⟩⟩ := nodeIcon_eq_ok h
  · exact ⟨[], .nil, by rw [IsImage, hnot, if_neg Bool.false_ne_true]⟩
  · exact absurd hsymbol (Icon.symbol?_empty _ s)
  · obtain ⟨p, hp, himage⟩ := Icon.imageMarkup_gives hgiven hm
    exact ⟨[p], .cons hp .nil, himage⟩

theorem nodeCircle_gives {n : SceneNode Value} {m : Markup} (h : nodeCircle n = .ok m) :
    ∃ p, m.Gives p ∧ IsCircle n.fill p := by
  obtain ⟨x, y, radius, fill, hx, hy, hr, hfill, rfl⟩ := nodeCircle_eq_ok h
  have hattrs := List.Forall₂.cons (gives_ofPlain "cx" (.ofList (by decide)) hx) <|
    .cons (gives_ofPlain "cy" (.ofList (by decide)) hy) <|
    .cons (gives_ofPlain "r" (.ofList (by decide)) hr) <|
    .cons (gives_ofText "fill" (.ofList (by decide)) fill) <|
    .cons (gives_fixed "stroke" "none" (.ofList (by decide)) (.ofList (by decide))) .nil
  have hcircle := gives_empty "circle" (.ofList (by decide)) hattrs false
  exact ⟨_, hcircle, x, y, radius, _, rfl, spells_of_written? hfill⟩

theorem nodeMarkup_gives {style : Style Value} {scale : Value} {n : SceneNode Value} {m : Markup}
    (h : nodeMarkup style {} scale n = .ok m) :
    ∃ p, m.Gives p ∧ IsNodeGroup n.id n.fill n.icon n.label (Caption.isShown style scale n.disc n.label) p := by
  obtain ⟨id, circle, icon, caption, hid, hcircle, hicon, hcaption, rfl⟩ := nodeMarkup_eq_ok h
  obtain ⟨c, hc, hfill⟩ := nodeCircle_gives hcircle
  obtain ⟨is, his, himage⟩ := nodeIcon_gives hicon
  obtain ⟨ts, hts, htext⟩ := Caption.nodeMarkup_gives hcaption
  have hattrs := List.Forall₂.cons (gives_fixed "class" "node" (.ofList (by decide)) (.ofList (by decide))) <|
    .cons (gives_ofText "data-node-id" (.ofList (by decide)) id) .nil
  have hinside := List.rel_append (List.Forall₂.cons hc his) hts
  have hgroup := gives_element "g" (.ofList (by decide)) hattrs hinside
  exact ⟨_, hgroup, _, c, is, ts, rfl, spells_of_written? hid, hfill, himage, htext⟩

theorem background_gives {color : Json} {b : Box Value} {ms : List Markup} (h : background color b = .ok ms) :
    ∃ ps, List.Forall₂ Markup.Gives ms ps ∧ IsBackground color ps := by
  obtain ⟨hnot, rfl⟩ | ⟨hvisible, place, fill, hplace, hfill, rfl⟩ := background_eq_ok h
  · exact ⟨[], .nil, by rw [IsBackground, hnot, if_neg Bool.false_ne_true]⟩
  · obtain ⟨x, y, width, height, hbox⟩ := Icon.boxAttrs_gives hplace
    have hattrs := List.rel_append hbox (.cons (gives_ofText "fill" (.ofList (by decide)) fill) .nil)
    refine ⟨_, .cons (gives_empty "rect" (.ofList (by decide)) hattrs true) .nil, ?_⟩
    rw [IsBackground, if_pos hvisible]
    exact ⟨x, y, width, height, _, rfl, spells_of_written? hfill⟩

end Svg
end NodeLink
