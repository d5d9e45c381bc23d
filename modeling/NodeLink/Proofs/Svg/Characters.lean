import NodeLink.Proofs.Source.Characters
import NodeLink.Proofs.Svg.SymbolReferences

/-!
# Which characters a document is made of

A document is written with plain characters, the signs of markup and line feeds, and apart from these with the
characters of the texts that it shows. So it is legal as XML exactly if the texts that it shows are.
-/

namespace NodeLink

/-- A space or a visible character of ASCII. -/
def isGraphic (c : Char) : Bool := ' ' ≤ c && c ≤ '~'

/-- A property of all characters with which a document is written apart from the texts of its graph. -/
structure Ordinary (P : Char → Prop) : Prop where
  graphic : ∀ c, isGraphic c = true → P c
  feed : P '\n'

/-- Every character has the property when the value is written out. -/
def Json.Keeps (P : Char → Prop) (value : Json) : Prop := ∀ c ∈ value.spelled, P c

def Attr.Keeps (P : Char → Prop) (a : Attr) : Prop := ∀ c ∈ a.write, P c

def Markup.Keeps (P : Char → Prop) (m : Markup) : Prop := ∀ c ∈ m.write, P c

theorem Json.spelled_of_written? {value : Json} {cs : List Char} (h : value.written? = .ok cs) :
    cs = value.spelled := by
  obtain ⟨s, rfl, rfl⟩ := Json.written?_eq_ok h
  rfl

variable {P : Char → Prop} {cs : List Char}

theorem Ordinary.plain (hP : Ordinary P) (h : Plain cs) : ∀ c ∈ cs, P c := by
  intro c hc
  have hplain := h c hc
  simp only [isPlain, Bool.and_eq_true] at hplain
  exact hP.graphic c (Bool.and_eq_true_iff.mpr hplain.1.1.1.1)

theorem Ordinary.all (hP : Ordinary P) (h : cs.all isGraphic = true) : ∀ c ∈ cs, P c :=
  fun c hc => hP.graphic c (List.all_eq_true.mp h c hc)

/-- A text that is spelled out. -/
theorem Ordinary.text (hP : Ordinary P) (h : cs.all isGraphic = true) : ∀ c ∈ (String.ofList cs).toList, P c := by
  rw [String.toList_ofList]
  exact hP.all h

/-- Escaping changes nothing about it: the characters that are escaped are visible, and so are their entities. -/
theorem keeps_escapeXml (hP : Ordinary P) (cs : List Char) : (∀ c ∈ escapeXml cs, P c) ↔ ∀ c ∈ cs, P c := by
  have hone (c : Char) : (∀ d ∈ escapeChar c, P d) ↔ P c := by
    unfold escapeChar
    split_ifs with hamp hlt hgt hquote hsingle
    · exact iff_of_true (hP.text (by decide)) (hamp ▸ hP.graphic _ rfl)
    · exact iff_of_true (hP.text (by decide)) (hlt ▸ hP.graphic _ rfl)
    · exact iff_of_true (hP.text (by decide)) (hgt ▸ hP.graphic _ rfl)
    · exact iff_of_true (hP.text (by decide)) (hquote ▸ hP.graphic _ rfl)
    · exact iff_of_true (hP.text (by decide)) (hsingle ▸ hP.graphic _ rfl)
    · exact List.forall_mem_singleton
  induction cs with
  | nil => exact Iff.rfl
  | cons c cs ih =>
    rw [escapeXml_cons]
    exact (List.forall_mem_append.trans (and_congr (hone c) ih)).trans List.forall_mem_cons.symm

/-! ### Attributes and elements -/

namespace Attr

variable {attrs : List Attr}

theorem keeps_quoted (hP : Ordinary P) {name : List Char} (hn : Plain name) (cs : List Char) :
    (∀ c ∈ ' ' :: name ++ '=' :: '"' :: cs ++ ['"'], P c) ↔ ∀ c ∈ cs, P c := by
  have hblank : P ' ' := hP.graphic _ rfl
  have hequals : P '=' := hP.graphic _ rfl
  have hquote : P '"' := hP.graphic _ rfl
  simp only [List.forall_mem_append, List.forall_mem_cons]
  exact ⟨fun h => h.1.2.2.2, fun h => ⟨⟨⟨hblank, hP.plain hn⟩, hequals, hquote, h⟩, hquote, nofun⟩⟩

theorem keeps_ofText (hP : Ordinary P) (name : String) (hn : Plain name.toList) (cs : List Char) :
    (ofText name cs).Keeps P ↔ ∀ c ∈ cs, P c :=
  (keeps_quoted hP hn (escapeXml cs)).trans (keeps_escapeXml hP cs)

theorem keeps_ofPlain (hP : Ordinary P) (name : String) (hn : Plain name.toList) (h : Plain cs) :
    (ofPlain name cs).Keeps P := (keeps_quoted hP hn cs).mpr (hP.plain h)

/-- An attribute that holds nothing of a graph may stand in front of any others. -/
theorem keeps_cons_plain (hP : Ordinary P) (name : String) (hn : Plain name.toList) (h : Plain cs) :
    (∀ a ∈ ofPlain name cs :: attrs, a.Keeps P) ↔ ∀ a ∈ attrs, a.Keeps P :=
  List.forall_mem_cons.trans (and_iff_right (keeps_ofPlain hP name hn h))

theorem keeps_cons_text (hP : Ordinary P) (name : String) (hn : Plain name.toList) (cs : List Char) :
    (∀ a ∈ ofText name cs :: attrs, a.Keeps P) ↔ (∀ c ∈ cs, P c) ∧ ∀ a ∈ attrs, a.Keeps P :=
  List.forall_mem_cons.trans (and_congr_left' (keeps_ofText hP name hn cs))

end Attr

namespace Markup

variable {name : List Char} {attrs : List Attr} {ms : List Markup}

theorem keeps_text (hP : Ordinary P) (cs : List Char) : (text cs).Keeps P ↔ ∀ c ∈ cs, P c := by
  rw [Keeps, write]
  exact keeps_escapeXml hP cs

theorem keeps_newline (hP : Ordinary P) : newline.Keeps P :=
  (keeps_text hP _).mpr (List.forall_mem_singleton.mpr hP.feed)

theorem keeps_attrs (attrs : List Attr) : (∀ c ∈ attrs.flatMap Attr.write, P c) ↔ ∀ a ∈ attrs, a.Keeps P := by
  simp only [List.mem_flatMap, Attr.Keeps]
  exact ⟨fun h a ha c hc => h c ⟨a, ha, hc⟩, fun h c ⟨a, ha, hc⟩ => h a ha c hc⟩

theorem keeps_empty (hP : Ordinary P) (hn : Plain name) (attrs : List Attr) (spaced : Bool) :
    (empty name attrs spaced).Keeps P ↔ ∀ a ∈ attrs, a.Keeps P := by
  have hopen : ∀ c ∈ '<' :: name, P c := List.forall_mem_cons.mpr ⟨hP.graphic _ rfl, hP.plain hn⟩
  have hclose : ∀ c ∈ (if spaced then [' ', '/', '>'] else ['/', '>']), P c := by
    cases spaced with
    | true =>
      rw [if_pos rfl]
      exact hP.all (by decide)
    | false =>
      rw [if_neg Bool.false_ne_true]
      exact hP.all (by decide)
  rw [Keeps, write, List.forall_mem_append, List.forall_mem_append, keeps_attrs]
  exact ⟨fun h => h.1.2, fun h => ⟨⟨hopen, h⟩, hclose⟩⟩

theorem keeps_writeAll (ms : List Markup) : (∀ c ∈ writeAll ms, P c) ↔ ∀ m ∈ ms, m.Keeps P := by
  induction ms with
  | nil => simp [writeAll]
  | cons m ms ih =>
    rw [writeAll, List.forall_mem_append, List.forall_mem_cons]
    exact and_congr Iff.rfl ih

theorem keeps_element (hP : Ordinary P) (hn : Plain name) (attrs : List Attr) (ms : List Markup) :
    (element name attrs ms).Keeps P ↔ (∀ a ∈ attrs, a.Keeps P) ∧ ∀ m ∈ ms, m.Keeps P := by
  have hopen : ∀ c ∈ '<' :: name, P c := List.forall_mem_cons.mpr ⟨hP.graphic _ rfl, hP.plain hn⟩
  have hmid : ∀ c ∈ ['>'], P c := hP.all (by decide)
  have hlead : ∀ c ∈ ['<', '/'], P c := hP.all (by decide)
  have hwrite : (element name attrs ms).write = '<' :: name ++ (attrs.flatMap Attr.write ++
      (['>'] ++ (writeAll ms ++ (['<', '/'] ++ (name ++ ['>']))))) := by
    rw [write]
    simp
  rw [Keeps, hwrite]
  simp only [List.forall_mem_append]
  rw [keeps_attrs, keeps_writeAll]
  exact ⟨fun h => ⟨h.2.1, h.2.2.2.1⟩, fun h => ⟨hopen, h.1, hmid, h.2, hlead, hP.plain hn, hmid⟩⟩

theorem keeps_block (hP : Ordinary P) {name : String} (hn : Plain name.toList) (attrs : List Attr) (ms : List Markup) :
    (block name attrs ms).Keeps P ↔ (∀ a ∈ attrs, a.Keeps P) ∧ ∀ m ∈ ms, m.Keeps P := by
  rw [block, keeps_element hP hn, List.forall_mem_append, List.forall_mem_singleton]
  have hlines : (∀ m ∈ ms.flatMap fun m => [newline, m], m.Keeps P) ↔ ∀ m ∈ ms, m.Keeps P := by
    induction ms with
    | nil => exact Iff.rfl
    | cons m ms ih =>
      rw [List.flatMap_cons, List.forall_mem_append, List.forall_mem_cons, List.forall_mem_singleton, List.forall_mem_cons]
      exact and_congr (and_iff_right (keeps_newline hP)) ih
  rw [hlines, and_iff_left (keeps_newline hP)]

theorem keeps_onLines (hP : Ordinary P) (ms : List Markup) :
    (∀ m ∈ onLines ms, m.Keeps P) ↔ ∀ m ∈ ms, m.Keeps P := by
  fun_induction onLines ms with
  | case1 => exact Iff.rfl
  | case2 m => exact Iff.rfl
  | case3 m ms _ ih =>
    rw [List.forall_mem_cons, List.forall_mem_cons, ih, List.forall_mem_cons]
    exact and_congr_right fun _ => and_iff_right (keeps_newline hP)

end Markup

/-! ### The elements of a drawing -/

open Markup (keeps_empty keeps_element keeps_text)
open Attr (keeps_cons_plain keeps_cons_text)

namespace Svg

theorem edgePath_keeps (hP : Ordinary P) {style : Style Value} {color : Json} {o : Outline Value} {m : Markup}
    (h : edgePath style color o = .ok m) : m.Keeps P ↔ color.Keeps P := by
  obtain ⟨data, fill, hdata, hfill, rfl⟩ := edgePath_eq_ok h
  obtain rfl := Json.spelled_of_written? hfill
  refine (keeps_empty hP (.ofList (by decide)) _ _).trans ?_
  refine (keeps_cons_plain hP "d" (.ofList (by decide)) hdata).trans ?_
  exact (keeps_cons_text hP "fill" (.ofList (by decide)) _).trans (and_iff_left nofun)

end Svg

namespace Caption

theorem fontAttrs_keeps (hP : Ordinary P) {color : Json} {fontSize : Value} {attrs : List Attr}
    (h : fontAttrs color fontSize = .ok attrs) : (∀ a ∈ attrs, a.Keeps P) ↔ color.Keeps P := by
  obtain ⟨fill, size, hfill, hsize, rfl⟩ := fontAttrs_eq_ok h
  obtain rfl := Json.spelled_of_written? hfill
  refine (keeps_cons_text hP "fill" (.ofList (by decide)) _).trans (and_iff_left ?_)
  refine (keeps_cons_plain hP "font-size" (.ofList (by decide)) hsize).mpr ?_
  exact (keeps_cons_plain hP "font-family" (.ofList (by decide)) (.ofList (by decide))).mpr nofun

theorem text_keeps (hP : Ordinary P) (name : String) (hn : Plain name.toList) (attrs : List Attr) (cs : List Char) :
    (Markup.element name.toList attrs [.text cs]).Keeps P ↔ (∀ a ∈ attrs, a.Keeps P) ∧ ∀ c ∈ cs, P c :=
  (keeps_element hP hn attrs _).trans (and_congr_right' (List.forall_mem_singleton.trans (keeps_text hP cs)))

theorem turnedMarkup_keeps (hP : Ordinary P) {text color : Json} {fontSize angle : Value} {p : Point Value}
    {m : Markup} (h : turnedMarkup text color fontSize angle p = .ok m) :
    m.Keeps P ↔ color.Keeps P ∧ text.Keeps P := by
  obtain ⟨x, y, turn, font, cs, hx, hy, hturn, hfont, hcs, rfl⟩ := turnedMarkup_eq_ok h
  obtain rfl := Json.spelled_of_written? hcs
  refine (text_keeps hP "text" (.ofList (by decide)) _ _).trans (and_congr_left' ?_)
  refine (keeps_cons_plain hP "x" (.ofList (by decide)) hx).trans ?_
  refine (keeps_cons_plain hP "y" (.ofList (by decide)) hy).trans ?_
  refine (keeps_cons_plain hP "text-anchor" (.ofList (by decide)) (.ofList (by decide))).trans ?_
  refine (keeps_cons_plain hP "dominant-baseline" (.ofList (by decide)) (.ofList (by decide))).trans ?_
  exact (keeps_cons_plain hP "transform" (.ofList (by decide)) hturn).trans (fontAttrs_keeps hP hfont)

theorem followingMarkup_keeps (hP : Ordinary P) {text color : Json} {fontSize : Value} {pathId : List Char}
    {m : Markup} (hid : Plain pathId) (h : followingMarkup text color pathId fontSize = .ok m) :
    m.Keeps P ↔ color.Keeps P ∧ text.Keeps P := by
  obtain ⟨font, cs, hfont, hcs, rfl⟩ := followingMarkup_eq_ok h
  obtain rfl := Json.spelled_of_written? hcs
  refine (keeps_element hP (.ofList (by decide)) _ _).trans (and_congr (fontAttrs_keeps hP hfont) ?_)
  refine List.forall_mem_singleton.trans ?_
  refine (text_keeps hP "textPath" (.ofList (by decide)) _ _).trans (and_iff_right ?_)
  refine (keeps_cons_plain hP "href" (.ofList (by decide)) (plain_cons.mpr ⟨by decide, hid⟩)).mpr ?_
  refine (keeps_cons_plain hP "startOffset" (.ofList (by decide)) (.ofList (by decide))).mpr ?_
  refine (keeps_cons_plain hP "text-anchor" (.ofList (by decide)) (.ofList (by decide))).mpr ?_
  exact (keeps_cons_plain hP "dominant-baseline" (.ofList (by decide)) (.ofList (by decide))).mpr nofun

theorem pathMarkup_keeps (hP : Ordinary P) {pathId : List Char} {c : Curve Value} {m : Markup} (hid : Plain pathId)
    (h : pathMarkup pathId c = .ok m) : m.Keeps P := by
  obtain ⟨data, hdata, rfl⟩ := pathMarkup_eq_ok h
  refine (keeps_empty hP (.ofList (by decide)) _ _).mpr ?_
  refine (keeps_cons_plain hP "id" (.ofList (by decide)) hid).mpr ?_
  exact (keeps_cons_plain hP "d" (.ofList (by decide)) hdata).mpr nofun

end Caption

/-- Text and definitions of a caption. -/
def DrawnCaption.Keeps (P : Char → Prop) (c : DrawnCaption) : Prop := c.text.Keeps P ∧ ∀ m ∈ c.defs, m.Keeps P

namespace Caption

theorem draw_keeps (hP : Ordinary P) {placed : Placed Value} {text color : Json} {pathId : List Char}
    {d : DrawnCaption} (hid : Plain pathId) (h : draw placed text color pathId = .ok d) :
    d.Keeps P ↔ color.Keeps P ∧ text.Keeps P := by
  obtain ⟨angle, m, hm, rfl⟩ | ⟨curve, m, path, hm, hpath, rfl⟩ := draw_eq_ok h
  · exact (and_iff_left nofun).trans (turnedMarkup_keeps hP hm)
  · have hdefs : ∀ m ∈ some path, m.Keeps P := by
      rintro m ⟨⟩
      exact pathMarkup_keeps hP hid hpath
    exact (and_iff_left hdefs).trans (followingMarkup_keeps hP hid hm)

theorem standingMarkup_keeps (hP : Ordinary P) {text : Json} {fontSize : Value} {p : Point Value} {m : Markup}
    (h : standingMarkup text fontSize p = .ok m) : m.Keeps P ↔ text.Keeps P := by
  obtain ⟨x, y, size, cs, hx, hy, hsize, hcs, rfl⟩ := standingMarkup_eq_ok h
  obtain rfl := Json.spelled_of_written? hcs
  refine (text_keeps hP "text" (.ofList (by decide)) _ _).trans (and_iff_right ?_)
  refine (keeps_cons_plain hP "x" (.ofList (by decide)) hx).mpr ?_
  refine (keeps_cons_plain hP "y" (.ofList (by decide)) hy).mpr ?_
  refine (keeps_cons_plain hP "font-size" (.ofList (by decide)) hsize).mpr ?_
  refine (keeps_cons_plain hP "fill" (.ofList (by decide)) (.ofList (by decide))).mpr ?_
  exact (keeps_cons_plain hP "dominant-baseline" (.ofList (by decide)) (.ofList (by decide))).mpr
    (List.forall_mem_nil _)

theorem nodeMarkup_keeps (hP : Ordinary P) {style : Style Value} {disc : Disc Value} {text : Json} {scale : Value}
    {ms : List Markup} (h : nodeMarkup style disc text scale = .ok ms) :
    (∀ m ∈ ms, m.Keeps P) ↔ (isShown style scale disc text = true → text.Keeps P) := by
  obtain ⟨hplace, rfl⟩ | ⟨size, p, m, hplace, hm, rfl⟩ := nodeMarkup_eq_ok h
  · rw [isShown, hplace]
    exact iff_of_true (List.forall_mem_nil _) fun hshown => Bool.noConfusion hshown
  · rw [isShown, hplace]
    exact (List.forall_mem_singleton.trans (standingMarkup_keeps hP hm)).trans (imp_iff_right rfl).symm

end Caption

namespace Icon

theorem boxAttrs_keeps (hP : Ordinary P) {b : Box Value} {attrs : List Attr} (h : boxAttrs b = .ok attrs) :
    ∀ a ∈ attrs, a.Keeps P := by
  obtain ⟨x, y, width, height, hx, hy, hw, hh, rfl⟩ := boxAttrs_eq_ok h
  refine (keeps_cons_plain hP "x" (.ofList (by decide)) hx).mpr ?_
  refine (keeps_cons_plain hP "y" (.ofList (by decide)) hy).mpr ?_
  refine (keeps_cons_plain hP "width" (.ofList (by decide)) hw).mpr ?_
  exact (keeps_cons_plain hP "height" (.ofList (by decide)) hh).mpr nofun

theorem imageMarkup_keeps (hP : Ordinary P) {d : Disc Value} {icon : Json} {m : Markup}
    (h : imageMarkup d icon = .ok m) : m.Keeps P ↔ icon.Keeps P := by
  obtain ⟨name, area, place, hname, hplace, rfl⟩ := imageMarkup_eq_ok h
  obtain rfl := Json.spelled_of_written? hname
  refine (keeps_empty hP (.ofList (by decide)) _ _).trans ?_
  refine (keeps_cons_text hP "href" (.ofList (by decide)) _).trans (and_iff_left ?_)
  refine List.forall_mem_append.mpr ⟨boxAttrs_keeps hP hplace, ?_⟩
  exact (keeps_cons_plain hP "preserveAspectRatio" (.ofList (by decide)) (.ofList (by decide))).mpr nofun

end Icon

namespace Svg

theorem nodeIcon_keeps (hP : Ordinary P) {n : SceneNode Value} {ms : List Markup} (h : nodeIcon {} n = .ok ms) :
    (∀ m ∈ ms, m.Keeps P) ↔ (n.icon.isGiven = true → n.icon.Keeps P) := by
  obtain ⟨hnot, rfl⟩ | ⟨hgiven, symbol, m, hsymbol, rfl, ⟨s, rfl, -⟩ | ⟨rfl, hm⟩⟩ := nodeIcon_eq_ok h
  · exact iff_of_true (List.forall_mem_nil _) fun hgiven => absurd (hnot.symm.trans hgiven) Bool.false_ne_true
  · exact absurd hsymbol (Icon.symbol?_empty _ s)
  · exact (List.forall_mem_singleton.trans (Icon.imageMarkup_keeps hP hm)).trans (imp_iff_right hgiven).symm

theorem nodeCircle_keeps (hP : Ordinary P) {n : SceneNode Value} {m : Markup} (h : nodeCircle n = .ok m) :
    m.Keeps P ↔ n.fill.Keeps P := by
  obtain ⟨x, y, radius, fill, hx, hy, hr, hfill, rfl⟩ := nodeCircle_eq_ok h
  obtain rfl := Json.spelled_of_written? hfill
  refine (keeps_empty hP (.ofList (by decide)) _ _).trans ?_
  refine (keeps_cons_plain hP "cx" (.ofList (by decide)) hx).trans ?_
  refine (keeps_cons_plain hP "cy" (.ofList (by decide)) hy).trans ?_
  refine (keeps_cons_plain hP "r" (.ofList (by decide)) hr).trans ?_
  refine (keeps_cons_text hP "fill" (.ofList (by decide)) _).trans (and_iff_left ?_)
  exact (keeps_cons_plain hP "stroke" (.ofList (by decide)) (.ofList (by decide))).mpr nofun

/-- The texts of a node that are shown have the property. -/
structure NodeKeeps (P : Char → Prop) (style : Style Value) (scale : Value) (n : SceneNode Value) : Prop where
  id : n.id.Keeps P
  fill : n.fill.Keeps P
  icon : n.icon.isGiven = true → n.icon.Keeps P
  label : Caption.isShown style scale n.disc n.label = true → n.label.Keeps P

theorem nodeMarkup_keeps (hP : Ordinary P) {style : Style Value} {scale : Value} {n : SceneNode Value} {m : Markup}
    (h : nodeMarkup style {} scale n = .ok m) : m.Keeps P ↔ NodeKeeps P style scale n := by
  obtain ⟨id, circle, icon, caption, hid, hcircle, hicon, hcaption, rfl⟩ := nodeMarkup_eq_ok h
  obtain rfl := Json.spelled_of_written? hid
  have hattrs : (∀ a ∈ [Attr.ofPlain "class" "node".toList, .ofText "data-node-id" n.id.spelled], a.Keeps P) ↔
      n.id.Keeps P :=
    (keeps_cons_plain hP "class" (.ofList (by decide)) (.ofList (by decide))).trans
      ((keeps_cons_text hP "data-node-id" (.ofList (by decide)) _).trans (and_iff_left nofun))
  refine (keeps_element hP (.ofList (by decide)) _ _).trans ?_
  rw [hattrs, List.forall_mem_append, List.forall_mem_cons, nodeCircle_keeps hP hcircle, nodeIcon_keeps hP hicon,
    Caption.nodeMarkup_keeps hP hcaption]
  exact ⟨fun h => ⟨h.1, h.2.1.1, h.2.1.2, h.2.2⟩, fun h => ⟨h.id, ⟨h.fill, h.icon⟩, h.label⟩⟩

theorem background_keeps (hP : Ordinary P) {color : Json} {b : Box Value} {ms : List Markup}
    (h : background color b = .ok ms) : (∀ m ∈ ms, m.Keeps P) ↔ (isVisible color = true → color.Keeps P) := by
  obtain ⟨hnot, rfl⟩ | ⟨hvisible, place, fill, hplace, hfill, rfl⟩ := background_eq_ok h
  · exact iff_of_true nofun fun hvisible => absurd (hnot.symm.trans hvisible) Bool.false_ne_true
  · obtain rfl := Json.spelled_of_written? hfill
    refine (List.forall_mem_singleton.trans ?_).trans (imp_iff_right hvisible).symm
    refine (keeps_empty hP (.ofList (by decide)) _ _).trans ?_
    refine List.forall_mem_append.trans ((and_iff_right (Icon.boxAttrs_keeps hP hplace)).trans ?_)
    exact (keeps_cons_text hP "fill" (.ofList (by decide)) _).trans (and_iff_left nofun)

end Svg
end NodeLink
