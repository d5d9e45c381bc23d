import NodeLink.Proofs.Svg.Reading

/-!
# Trees of elements

What markup is read as when it is put together: elements one behind the other, elements on lines of their own,
and a single run of text.
-/

namespace NodeLink

namespace Piece

/-- An element with its attributes and what stands in it. -/
def tag (name : String) (attrs : List (String × List Char)) (children : List Piece) : Piece :=
  .element name.toList (attrs.map fun a => (a.1.toList, a.2)) children

def newline : Piece := .run ['\n']

/-- An element whose children stand on lines of their own. -/
def block (name : String) (attrs : List (String × List Char)) (children : List Piece) : Piece :=
  tag name attrs (children.flatMap (fun p => [newline, p]) ++ [newline])

def onLines : List Piece → List Piece
  | [] => []
  | [p] => [p]
  | p :: ps => p :: newline :: onLines ps

end Piece

namespace Content

@[simp] theorem all_put (c : Content) (p : Piece) : (c.put p).all = c.all ++ [p] := by
  simp [put, all, Piece.ofRun]

theorem all_write_newline {c : Content} (h : c.pending = []) : (c.write ['\n']).all = c.all ++ [.newline] := by
  simp [write, all, h, Piece.ofRun, Piece.newline]

end Content

namespace Attr

/-- The attribute is read as the given name and value. -/
structure Gives (a : Attr) (named : String × List Char) : Prop where
  sound : a.Sound
  pair : a.pair = (named.1.toList, named.2)

theorem gives_ofText (name : String) (hn : IsName name.toList) (cs : List Char) :
    (ofText name cs).Gives (name, escapeXml cs) :=
  ⟨⟨hn, escaped_escapeXml cs⟩, rfl⟩

theorem gives_ofPlain (name : String) (hn : IsName name.toList) {cs : List Char} (hcs : Plain cs) :
    (ofPlain name cs).Gives (name, cs) :=
  ⟨⟨hn, hcs.escaped⟩, rfl⟩

/-- An attribute that is the same in every drawing. -/
theorem gives_fixed (name value : String) (hn : IsName name.toList) (hv : Plain value.toList) :
    (ofPlain name value.toList).Gives (name, value.toList) :=
  gives_ofPlain name hn hv

theorem gives_all {attrs : List Attr} {named : List (String × List Char)} (h : List.Forall₂ Gives attrs named) :
    (∀ a ∈ attrs, a.Sound) ∧ attrs.map pair = named.map fun a => (a.1.toList, a.2) := by
  induction h with
  | nil => exact ⟨nofun, rfl⟩
  | cons ha _ ih =>
    obtain ⟨hsound, hpairs⟩ := ih
    exact ⟨List.forall_mem_cons.mpr ⟨ha.sound, hsound⟩, by rw [List.map_cons, List.map_cons, ha.pair, hpairs]⟩

end Attr

namespace Markup

variable {name : String} {attrs : List Attr} {named : List (String × List Char)} {ms : List Markup}
  {ps : List Piece}

/-- The markup is read as the given element, wherever it stands. -/
structure Gives (m : Markup) (p : Piece) : Prop where
  sound : m.Sound
  adds : ∀ c : Content, m.addTo c = c.put p

theorem gives_empty (name : String) (hn : IsName name.toList) (ha : List.Forall₂ Attr.Gives attrs named)
    (spaced : Bool) : (empty name.toList attrs spaced).Gives (.tag name named []) := by
  obtain ⟨hsound, hpairs⟩ := Attr.gives_all ha
  refine ⟨.empty hn hsound, fun c => ?_⟩
  rw [addTo, hpairs, Piece.tag]

theorem gives_of_children (hn : IsName name.toList) (ha : List.Forall₂ Attr.Gives attrs named)
    (hsound : ∀ m ∈ ms, m.Sound) (h : (addAll {} ms).all = ps) :
    (element name.toList attrs ms).Gives (.tag name named ps) := by
  obtain ⟨hattrs, hpairs⟩ := Attr.gives_all ha
  refine ⟨.element hn hattrs hsound, fun c => ?_⟩
  rw [addTo, hpairs, h, Piece.tag]

theorem Gives.addAll (h : List.Forall₂ Gives ms ps) (c : Content) :
    (∀ m ∈ ms, m.Sound) ∧ (addAll c ms).all = c.all ++ ps := by
  induction h generalizing c with
  | nil => exact ⟨nofun, by simp [Markup.addAll]⟩
  | @cons m p ms ps hm _ ih =>
    obtain ⟨hsound, hall⟩ := ih (c.put p)
    refine ⟨List.forall_mem_cons.mpr ⟨hm.sound, hsound⟩, ?_⟩
    rw [Markup.addAll, hm.adds, hall, Content.all_put, List.append_assoc, List.singleton_append]

theorem gives_element (name : String) (hn : IsName name.toList) (ha : List.Forall₂ Attr.Gives attrs named)
    (h : List.Forall₂ Gives ms ps) : (element name.toList attrs ms).Gives (.tag name named ps) := by
  obtain ⟨hsound, hall⟩ := Gives.addAll h {}
  exact gives_of_children hn ha hsound hall

theorem gives_text (name : String) (hn : IsName name.toList) (ha : List.Forall₂ Attr.Gives attrs named)
    (cs : List Char) :
    (element name.toList attrs [.text cs]).Gives (.tag name named (Piece.ofRun (escapeXml cs))) :=
  gives_of_children hn ha (by simpa using .text cs) rfl

theorem addAll_newline (c : Content) (ms : List Markup) :
    addAll c (newline :: ms) = addAll (c.write ['\n']) ms := rfl

theorem all_block (h : List.Forall₂ Gives ms ps) {c : Content}
    (hc : c.pending = []) :
    (addAll c (ms.flatMap (fun m => [newline, m]) ++ [newline])).all =
      c.all ++ (ps.flatMap (fun p => [.newline, p]) ++ [.newline]) := by
  induction h generalizing c with
  | nil => exact Content.all_write_newline hc
  | @cons m p ms ps hm _ ih =>
    have hrest := ih (c := (c.write ['\n']).put p) rfl
    rw [Content.all_put, Content.all_write_newline hc] at hrest
    rw [List.flatMap_cons, List.append_assoc, List.cons_append, addAll_newline, List.cons_append,
      List.nil_append, Markup.addAll, hm.adds, hrest]
    simp

theorem all_onLines (h : List.Forall₂ Gives ms ps) (c : Content) :
    (addAll c (onLines ms)).all = c.all ++ Piece.onLines ps := by
  induction h generalizing c with
  | nil => exact (List.append_nil _).symm
  | @cons m p ms ps hm h ih =>
    cases h with
    | nil =>
      rw [onLines, Markup.addAll, hm.adds]
      exact Content.all_put c p
    | @cons m' p' ms ps hm' h =>
      have hmore : onLines (m :: m' :: ms) = m :: newline :: onLines (m' :: ms) := rfl
      have hpieces : Piece.onLines (p :: p' :: ps) = p :: .newline :: Piece.onLines (p' :: ps) := rfl
      rw [hmore, hpieces, Markup.addAll, hm.adds, addAll_newline, ih, Content.all_write_newline rfl,
        Content.all_put]
      simp

theorem sound_block (h : ∀ m ∈ ms, m.Sound) :
    ∀ m ∈ ms.flatMap (fun m => [newline, m]) ++ [newline], m.Sound := by
  intro m hm
  simp only [List.mem_append, List.mem_flatMap, List.mem_cons, List.not_mem_nil, or_false] at hm
  rcases hm with ⟨m', hm', rfl | rfl⟩ | rfl
  · exact .text _
  · exact h _ hm'
  · exact .text _

theorem sound_onLines (h : ∀ m ∈ ms, m.Sound) : ∀ m ∈ onLines ms, m.Sound := by
  fun_induction onLines ms with
  | case1 => exact h
  | case2 m => exact h
  | case3 m ms _ ih =>
    obtain ⟨hm, hms⟩ := List.forall_mem_cons.mp h
    exact List.forall_mem_cons.mpr ⟨hm, List.forall_mem_cons.mpr ⟨.text _, ih hms⟩⟩

theorem gives_block (name : String) (hn : IsName name.toList) (ha : List.Forall₂ Attr.Gives attrs named)
    (h : List.Forall₂ Gives ms ps) : (block name attrs ms).Gives (.block name named ps) :=
  gives_of_children hn ha (sound_block (Gives.addAll h {}).1) (all_block h rfl)

theorem gives_onLines (name : String) (hn : IsName name.toList) (h : List.Forall₂ Gives ms ps) :
    (element name.toList [] (onLines ms)).Gives (.tag name [] (Piece.onLines ps)) :=
  gives_of_children hn .nil (sound_onLines (Gives.addAll h {}).1) (all_onLines h {})

theorem Gives.read {m : Markup} {p : Piece} (h : m.Gives p) : Piece.read m.write = some [p] ∧ p.Clean := by
  have hall : (m.addTo {}).all = [p] := by
    rw [h.adds, Content.all_put]
    rfl
  refine ⟨by rw [read_write h.sound, hall], ?_⟩
  exact (h.sound.clean {} Content.clean_empty).all p (by simp [hall])

end Markup
end NodeLink
