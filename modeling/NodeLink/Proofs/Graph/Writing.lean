import NodeLink.Layout.Graphviz
import NodeLink.Proofs.Number.Values
import NodeLink.Proofs.Outcome

/-!
# Graphs that can be written as DOT

Where names, captions and colours are texts, sizes and positions are numbers among the doubles, and a diameter
is one too, a graph becomes a DOT text, and Graphviz gets a request with it.
-/

namespace NodeLink

/-- A number whose double is among the doubles, as a diameter is and the way between two coordinates. -/
def Json.FitsTwice (value : Json) : Prop := (Value.ofJson value).FitsTwice

def Json.IsDouble (value : Json) : Prop := (Value.ofJson value).IsDouble

/-- Null or a text. -/
def Json.IsCaption (value : Json) : Prop := value = .null ∨ ∃ s, value = .text s

/-- A node as DOT can tell of it. -/
structure Node.Writable (n : Node) : Prop where
  id : ∃ s, n.id = .text s
  label : n.label.IsCaption
  color : n.color.IsCaption
  size : n.size.FitsTwice
  x : n.x = .null ∨ n.x.FitsTwice
  y : n.y = .null ∨ n.y.FitsTwice

theorem fitsTwice_of_set {value : Json} (h : value = .null ∨ value.FitsTwice) (set : value.isNull = false) :
    value.FitsTwice := by
  obtain rfl | h := h
  · cases set
  · exact h

structure Edge.Writable (e : Edge) : Prop where
  source : ∃ s, e.source = .text s
  target : ∃ s, e.target = .text s
  label : e.label.IsCaption

structure Graph.Writable (g : Graph) : Prop where
  title : ∃ s, g.title = .text s
  nodes : ∀ n ∈ g.nodes, n.Writable
  edges : ∀ e ∈ g.edges, e.Writable

namespace Dot

theorem quoteJson_succeeds {value : Json} (h : ∃ s, value = .text s) : ∃ cs, quoteJson value = .ok cs := by
  obtain ⟨s, rfl⟩ := h
  exact ⟨_, rfl⟩

theorem assignments_succeed {attrs : List Attribute} (h : ∀ a ∈ attrs, a.2.IsCaption) :
    ∃ parts, assignments attrs = .ok parts := by
  refine mapM_succeeds fun a ha => ?_
  rw [sorted, List.mem_mergeSort] at ha
  obtain ⟨hmem, hnull⟩ := List.mem_filter.mp ha
  obtain hc | hc := h a hmem
  · rw [hc] at hnull
    cases hnull
  · exact bind_succeeds (quoteJson_succeeds hc) fun _ _ => ⟨_, rfl⟩

theorem labelled_succeeds {label : Json} {attrs : List Attribute} (hl : label.IsCaption)
    (h : ∀ a ∈ attrs, a.2.IsCaption) : ∃ parts, labelled label attrs = .ok parts := by
  have rest (first : List (List Char)) :
      ∃ parts, (do return first ++ (← assignments attrs) : Except Fault _) = .ok parts :=
    bind_succeeds (assignments_succeed h) fun _ _ => ⟨_, rfl⟩
  obtain rfl | ⟨s, rfl⟩ := hl
  · exact rest []
  · exact rest ["label=".toList ++ quote s.toList]

theorem longColor_succeeds {color : Json} (h : color.IsCaption) :
    ∃ long, longColor color = .ok long ∧ long.IsCaption := by
  obtain rfl | ⟨s, rfl⟩ := h
  · exact ⟨_, rfl, Or.inl rfl⟩
  · unfold longColor
    split
    · exact ⟨_, rfl, Or.inr ⟨s, rfl⟩⟩
    · refine ⟨_, rfl, ?_⟩
      split
      · exact Or.inr ⟨_, rfl⟩
      · exact Or.inr ⟨s, rfl⟩

theorem diameter_succeeds {n : Node} (h : n.Writable) : ∃ x, diameter n.size = .ok (.real x) := by
  have hinch : ((72.0 : Float) == 0) = false := rfl
  obtain ⟨x, hx⟩ := h.size.two_mul.div hinch
  refine ⟨x, ?_⟩
  change Value.settle (Value.whole 2 * Value.ofJson n.size / .real 72.0) = _
  rw [hx]
  rfl

theorem places4_succeeds {value : Value} (h : value.Fits) : ∃ cs, value.places4 = .ok cs := by
  obtain ⟨x, rfl⟩ | ⟨n, rfl, hn⟩ := h
  · exact ⟨_, rfl⟩
  · unfold Value.places4
    rw [Value.written, if_pos hn]
    exact ⟨_, rfl⟩

theorem position_succeeds {n : Node} (h : n.Writable) :
    ∃ attrs, position n = .ok attrs ∧ ∀ a ∈ attrs, a.2.IsCaption := by
  unfold position
  by_cases hp : n.hasPosition = true
  · rw [if_pos hp]
    rw [Node.hasPosition, Bool.and_eq_true, Bool.not_eq_true', Bool.not_eq_true'] at hp
    obtain ⟨x, hx⟩ := places4_succeeds (fitsTwice_of_set h.x hp.1).fits
    obtain ⟨y, hy⟩ := places4_succeeds (fitsTwice_of_set h.y hp.2).fits.neg
    rw [hx, hy]
    refine ⟨_, rfl, fun a ha => ?_⟩
    rw [List.mem_singleton] at ha
    exact Or.inr ⟨_, congrArg Prod.snd ha⟩
  · rw [if_neg hp]
    exact ⟨[], rfl, nofun⟩

theorem nodeLine_succeeds {n : Node} (h : n.Writable) : ∃ line, nodeLine n = .ok line := by
  obtain ⟨x, hx⟩ := diameter_succeeds h
  obtain ⟨long, hlong, hcaption⟩ := longColor_succeeds h.color
  obtain ⟨pos, hpos, hposCaption⟩ := position_succeeds h
  obtain ⟨id, hid⟩ := quoteJson_succeeds h.id
  refine bind_succeeds ⟨_, hx⟩ fun diameter hdiameter => bind_succeeds ⟨_, hlong⟩ fun color hcolor => ?_
  obtain rfl : Value.real x = diameter := Except.ok.inj (hx.symm.trans hdiameter)
  obtain rfl : long = color := Except.ok.inj (hlong.symm.trans hcolor)
  refine bind_succeeds ⟨_, rfl⟩ fun size _ => bind_succeeds ⟨_, hpos⟩ fun pos' hpos' => ?_
  obtain rfl : pos = pos' := Except.ok.inj (hpos.symm.trans hpos')
  refine bind_succeeds ⟨_, hid⟩ fun _ _ => bind_succeeds (labelled_succeeds h.label fun a ha => ?_)
    fun _ _ => ⟨_, rfl⟩
  rw [List.mem_append] at ha
  obtain ha | ha := ha
  · simp only [List.mem_cons, List.not_mem_nil, or_false] at ha
    rcases ha with rfl | rfl | rfl | rfl | rfl | rfl
    · exact Or.inr ⟨_, rfl⟩
    · exact Or.inr ⟨_, rfl⟩
    · exact hcaption
    · exact Or.inr ⟨_, rfl⟩
    · exact Or.inr ⟨_, rfl⟩
    · exact Or.inr ⟨_, rfl⟩
  · exact hposCaption a ha

theorem endText_succeeds {id : Json} (h : ∃ s, id = .text s) : ∃ cs, endText id = .ok cs := by
  obtain ⟨s, rfl⟩ := h
  exact ⟨_, rfl⟩

theorem isCaption_direction {kind : EdgeKind} : ∀ a ∈ direction kind, a.2.IsCaption := by
  intro a ha
  unfold direction at ha
  split at ha
  · exact Or.inr ⟨_, congrArg Prod.snd (List.mem_singleton.mp ha)⟩
  · split at ha
    · cases ha
    · exact Or.inr ⟨_, congrArg Prod.snd (List.mem_singleton.mp ha)⟩

theorem edgeLine_succeeds {e : Edge} (h : e.Writable) (directed : Bool) :
    ∃ line, edgeLine directed e = .ok line := by
  refine bind_succeeds (endText_succeeds h.source) fun _ _ =>
    bind_succeeds (endText_succeeds h.target) fun _ _ =>
      bind_succeeds (labelled_succeeds ?_ fun a ha => ?_) fun _ _ => ⟨_, rfl⟩
  · obtain hl | ⟨s, hl⟩ := h.label
    · rw [hl]
      exact Or.inr ⟨_, rfl⟩
    · rw [hl, Json.orElse]
      split
      · exact Or.inr ⟨_, rfl⟩
      · exact Or.inr ⟨_, rfl⟩
  · rw [List.mem_append] at ha
    obtain ha | ha := ha
    · exact Or.inr ⟨_, congrArg Prod.snd (List.mem_singleton.mp ha)⟩
    · split at ha
      · exact isCaption_direction a ha
      · cases ha

theorem statements_succeed {g : Graph} (h : g.Writable) : ∃ lines, statements g = .ok lines :=
  bind_succeeds (mapM_succeeds fun n hn => nodeLine_succeeds (h.nodes n hn)) fun _ _ =>
    bind_succeeds (mapM_succeeds fun e he => edgeLine_succeeds (h.edges e he) _) fun _ _ => ⟨_, rfl⟩

theorem opening_succeeds {title : Json} (h : ∃ s, title = .text s) (directed : Bool) :
    ∃ first, opening directed title = .ok first := by
  unfold opening
  dsimp only
  by_cases hg : title.isGiven
  · rw [if_pos hg]
    exact bind_succeeds (quoteJson_succeeds h) fun _ _ => ⟨_, rfl⟩
  · rw [if_neg hg]
    exact ⟨_, rfl⟩

theorem print_succeeds {g : Graph} (h : g.Writable) {settings : List Attribute}
    (hs : ∃ line, settingsLine settings = .ok line) : ∃ text, print g settings = .ok text :=
  bind_succeeds (statements_succeed h) fun _ _ => bind_succeeds hs fun _ _ =>
    bind_succeeds (opening_succeeds h.title _) fun _ _ => ⟨_, rfl⟩

end Dot

namespace Graphviz

theorem settingsLine_inferSettings (g : Graph) (iterations : Json) :
    ∃ line, Dot.settingsLine ((inferSettings g iterations).filter fun setting => setting.1 ≠ "engine") =
      .ok line := by
  have hsettings : (inferSettings g iterations).filter (fun setting => setting.1 ≠ "engine") =
      [("maxiter", .text (Fault.textOf iterations)), ("overlap", .text "false"),
        ("K", .text (if 100 < g.slots.length then "0.3" else "1.0"))] := rfl
  rw [hsettings]
  refine bind_succeeds ⟨none, rfl⟩ fun _ _ => ?_
  change ∃ line, (Dot.assignments [("maxiter", .text (Fault.textOf iterations)), ("overlap", .text "false"),
    ("K", .text (if 100 < g.slots.length then "0.3" else "1.0"))] >>= _) = .ok line
  refine bind_succeeds (Dot.assignments_succeed fun a ha => ?_) fun _ _ => ⟨_, rfl⟩
  simp only [List.mem_cons, List.not_mem_nil, or_false] at ha
  rcases ha with rfl | rfl | rfl <;> exact Or.inr ⟨_, rfl⟩

theorem prepare_succeeds {g : Graph} (h : g.Writable) (iterations : Json) :
    ∃ request, prepare g (inferSettings g iterations) = .ok request := by
  refine bind_succeeds (map_succeeds (Dot.statements_succeed h)) fun _ _ => ?_
  refine bind_succeeds ⟨if 500 < g.slots.length then "sfdp" else "fdp", rfl⟩ fun asked hasked => ?_
  cases hasked
  have hknown : engines.contains (String.ofList (Text.toSmall
      (if 500 < g.slots.length then "sfdp" else "fdp").toList)) = true := by
    split <;> decide +kernel
  dsimp only
  rw [if_pos hknown]
  exact bind_succeeds (Dot.print_succeeds h (settingsLine_inferSettings g iterations)) fun _ _ => ⟨_, rfl⟩

end Graphviz
end NodeLink
