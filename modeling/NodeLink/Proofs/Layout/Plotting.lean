import NodeLink.Proofs.Layout.Answers
import NodeLink.Proofs.Number.Operations

/-!
# Layouts that do not fail

Where what Graphviz writes can be read, every name stands for a layout that comes to its end on a graph that can be
written and whose coordinates are not set or doubles. All its coordinates are doubles then. On a circle no angle is infinite,
however many nodes share it.
-/

namespace NodeLink

open Scalar Value

/-- Every node stands at a point of doubles. -/
def Graph.Plotted (g : Graph) : Prop := ∀ n ∈ g.nodes, n.x.IsDouble ∧ n.y.IsDouble

/-- A graph whose nodes wait for their places, or have them. -/
structure Graph.Plottable (g : Graph) : Prop where
  writable : g.Writable
  few : g.slots.length < 2 * moderateLimit
  nodes : ∀ n ∈ g.nodes, (n.x.isNull = false → n.x.IsDouble) ∧ (n.y.isNull = false → n.y.IsDouble)

theorem isNull_of_isDouble {value : Json} (h : value.IsDouble) : value.isNull = false := by
  cases value with
  | null =>
    obtain ⟨x, hx⟩ := h
    cases hx
  | _ => rfl

theorem Graph.Plotted.placed {g : Graph} (h : g.Plotted) : g.Placed := fun n hn =>
  hasPosition_of (isNull_of_isDouble (h n hn).1) (isNull_of_isDouble (h n hn).2)

theorem Graph.Writable.moved {g g' : Graph} (h : g.Writable) (hmoved : g.OnlyMoved g') (hplotted : g'.Plotted) :
    g'.Writable := by
  refine ⟨?_, fun n' hn' => ?_, ?_⟩
  · rw [hmoved.title]
    exact h.title
  · obtain ⟨n, hn, hmove⟩ := exists_of_forall₂ hmoved.nodes hn'
    obtain ⟨hx, hy⟩ := hplotted n' hn'
    have hx' : n'.x = .null ∨ n'.x.FitsTwice := Or.inr (Or.inl hx)
    have hy' : n'.y = .null ∨ n'.y.FitsTwice := Or.inr (Or.inl hy)
    have hnode := h.nodes n hn
    rw [hmove]
    exact ⟨hnode.id, hnode.label, hnode.color, hnode.size, hx', hy'⟩
  · rw [hmoved.edges]
    exact h.edges

theorem Graph.mem_nodes_withNodes {g : Graph} {nodes : List Node} {n : Node} (h : n ∈ (g.withNodes nodes).nodes) :
    n ∈ nodes := by
  obtain ⟨slot, hslot, rfl⟩ := List.mem_map.mp h
  change slot ∈ g.slots.zipWith _ nodes at hslot
  rw [← List.map_uncurry_zip_eq_zipWith] at hslot
  obtain ⟨⟨old, new⟩, hpair, rfl⟩ := List.mem_map.mp hslot
  exact (List.of_mem_zip hpair).2

namespace Layout

/-- A layout that comes to its end, with every node at a point of doubles. -/
structure Plots (r : Result) : Prop where
  ends : r.fault = none
  plotted : r.state.graph.Plotted

variable {w : World} {s : State}

theorem isDouble_placed (n : Node) {p : Point Value} (hp : p.IsDouble) :
    (placed n p).x.IsDouble ∧ (placed n p).y.IsDouble := by
  obtain ⟨⟨x, hx⟩, ⟨y, hy⟩⟩ := hp
  unfold placed
  rw [hx, hy]
  exact ⟨⟨x, rfl⟩, ⟨y, rfl⟩⟩

theorem plots_empty (h : s.graph.slots.isEmpty) : Plots { state := s } := by
  refine ⟨rfl, fun n hn => ?_⟩
  rw [nodes_of_isEmpty h] at hn
  cases hn

/-! ### Random coordinates -/

theorem scattered_gives (hd : Force.UnitDraws w.draw) (value : Json) : (scattered w value).Gives Json.IsDouble := by
  intro draws
  obtain ⟨x, hx, -⟩ := hd draws
  have hcentred : (Value.real x - .real 0.5 : Value) = .real (x - 0.5) := rfl
  have hspread : Scalar.settle ((Value.real x - .real 0.5) * .whole 2 * .real 200.0) =
      .ok (.real ((x - 0.5) * Binary64.ofInt 2 * 200.0)) := by
    rw [hcentred, real_mul_two]
    rfl
  refine ⟨.real ((x - 0.5) * Binary64.ofInt 2 * 200.0), draws + 1, ?_, ⟨_, rfl⟩⟩
  rw [run_scattered, hx]
  change (Except.map Value.toJson (Scalar.settle _), _) = _
  rw [hspread]
  rfl

theorem renewAll_plots {coordinate : Json → Force.Drawing Json} {P : Json → Prop}
    (hgives : ∀ value, P value → (coordinate value).Gives Json.IsDouble) (h : ∀ n ∈ s.graph.nodes, P n.x ∧ P n.y) :
    Plots (renewAll coordinate s) := by
  obtain ⟨hnone, hnew⟩ := renew_gives hgives s.draws h
  exact ⟨hnone, fun n hn => hnew n (Graph.mem_nodes_withNodes hn)⟩

theorem random_plots (hd : Force.UnitDraws w.draw) (s : State) : Plots (renewAll (scattered w) s) :=
  renewAll_plots (P := fun _ => True) (fun value _ => scattered_gives hd value) fun _ _ => ⟨trivial, trivial⟩

theorem renewAll_seeded_plots (hd : Force.UnitDraws w.draw) (h : s.graph.Plottable) :
    Plots (renewAll (seeded w) s) :=
  renewAll_plots (P := fun value => value.isNull = false → value.IsDouble)
    (fun _ hvalue => seeded_gives hd (fun _ => id) hvalue) h.nodes

/-! ### Places on a circle -/

theorem isInf_share {count i : Nat} (h : count < 2 * moderateLimit) (hi : i < count) :
    (Binary64.ofInt i * (Binary64.ofInt 2 * Number.piFloat / Binary64.ofInt count)).isInf = false := by
  have hcount := Binary64.normal_ofInt (by omega) (lt_two_pow_of_twice h) (by decide) (by decide)
  have hplace := Binary64.below_ofInt (lt_two_pow_of_twice (hi.trans h)) (by decide) (by decide)
  have hturn : Binary64.Normal (-50) (-50) (Binary64.ofInt 2 * Number.piFloat) :=
    ⟨_, _, _, rfl, by decide, le_rfl, le_rfl⟩
  have hstep := (hturn.div hcount (by decide) (by decide)).below le_rfl
  exact (hplace.mul hstep (by decide) (by decide)).isInf

theorem circlePlace_succeeds {count i : Nat} (h : count < 2 * moderateLimit) (hi : i < count) {radius : Value}
    (hr : radius.Fits) : Succeeds (circlePlace count i radius) Point.IsDouble := by
  have htwo : wholeFits 2 = true := wholeFits_of_lt (by decide)
  have hcount : wholeFits count = true := wholeFits_of_moderate (by omega)
  have hplace : wholeFits i = true := wholeFits_of_moderate (by omega)
  have hne := (Binary64.normal_ofInt (by omega) (lt_two_pow_of_twice h) (by decide) (by decide)).ne_zero
  have hstep : (2 * Scalar.pi / Scalar.ofWhole count : Value) =
      .real (Binary64.ofInt 2 * Number.piFloat / Binary64.ofInt count) := by
    change Value.div (Value.mul (.whole 2) (.real Number.piFloat)) (.whole count) = _
    simp only [Value.mul, Value.div, combine, withReal_of_fits htwo, withReal_of_fits hcount, divReal, hne]
    rfl
  have hangle (step : Float) : (Scalar.ofWhole i * .real step : Value) = .real (Binary64.ofInt i * step) := by
    change Value.mul (.whole i) (.real step) = _
    simp only [Value.mul, combine, withReal_of_fits hplace]
  have hfinite := isInf_share h hi
  unfold circlePlace
  rw [hstep]
  apply Succeeds.bind (P := fun step => step = Value.real (Binary64.ofInt 2 * Number.piFloat / Binary64.ofInt count))
    ⟨_, rfl, rfl⟩
  rintro step rfl
  rw [hangle]
  generalize Binary64.ofInt i * (Binary64.ofInt 2 * Number.piFloat / Binary64.ofInt count) = angle at hfinite ⊢
  apply Succeeds.bind (P := fun v => v = Value.real angle) ⟨_, rfl, rfl⟩
  rintro v rfl
  have hcos : (Scalar.cos (Value.real angle)).IsDouble := isDouble_periodic hfinite Float.cos
  have hsin : (Scalar.sin (Value.real angle)).IsDouble := isDouble_periodic hfinite Float.sin
  have hp : Point.IsDouble ⟨Scalar.cos (Value.real angle) * radius, Scalar.sin (Value.real angle) * radius⟩ :=
    ⟨mul_left hcos hr, mul_left hsin hr⟩
  exact ⟨_, hp.settle, hp⟩

theorem radiusFor_succeeds {count : Nat} (h : count < 2 * moderateLimit) :
    Succeeds (radiusFor (Value.whole count)) Value.Fits := by
  have heighty : (80 : Value).Fits := fits_whole (n := 80) (by decide)
  have hroom : (Value.whole count * 20).Fits := fits_of_moderate (n := count * 20) (by omega)
  apply Succeeds.bind (P := Value.Fits) ⟨_, hroom.settle, hroom⟩
  intro room hroom
  exact greatest_succeeds heighty hroom heighty hroom

theorem circleNodes_succeeds {nodes : List Node} (h : nodes.length < 2 * moderateLimit) :
    Succeeds (circleNodes nodes) fun nodes => ∀ n ∈ nodes, n.x.IsDouble ∧ n.y.IsDouble := by
  apply (radiusFor_succeeds h).bind
  intro radius hradius
  apply Succeeds.mapM
  rintro ⟨n, i⟩ hmem
  have hi : i < nodes.length := (List.mem_zipIdx' hmem).1
  apply (circlePlace_succeeds h hi hradius).map
  intro p hp
  exact isDouble_placed n hp

theorem circle_plots (h : s.graph.slots.length < 2 * moderateLimit) : Plots (circle s) := by
  have hlength : s.graph.nodes.length < 2 * moderateLimit := by rwa [Graph.nodes, List.length_map]
  obtain ⟨nodes, hnodes, hdouble⟩ := circleNodes_succeeds hlength
  unfold circle
  rw [hnodes]
  exact ⟨rfl, fun n hn => hdouble n (Graph.mem_nodes_withNodes hn)⟩

/-! ### The simulation -/

theorem simulateSeeded_plots (hd : Force.UnitDraws w.draw) (iterations : Int) {law : Force.Law Value}
    (hl : law.IsDouble) (hg : s.graph.Writable) (hp : s.graph.Plotted) :
    Plots (simulateSeeded w (.whole iterations) law s) := by
  refine ⟨simulateSeeded_succeeds hd iterations hl hg hp.placed, ?_⟩
  obtain ⟨edges, hplan⟩ := plan_succeeds hg iterations
  unfold simulateSeeded
  rw [hplan]
  dsimp only
  split
  · exact hp
  · have hstart : ∀ p ∈ (s.graph.nodes.map centre).toArray, p.IsDouble := by
      intro p hmem
      obtain ⟨n, hn, rfl⟩ := List.mem_map.mp (List.mem_toArray.mp hmem)
      exact ⟨(hp n hn).1, (hp n hn).2⟩
    obtain ⟨-, hpoints⟩ := Force.steps_succeed hl hd edges iterations.toNat
      (s := ⟨(s.graph.nodes.map centre).toArray, s.draws⟩) fun p hmem => (hstart p hmem).fitsTwice
    intro n hn
    have hmem := Graph.mem_nodes_withNodes hn
    rw [← List.map_uncurry_zip_eq_zipWith] at hmem
    obtain ⟨⟨old, p⟩, hpair, rfl⟩ := List.mem_map.mp hmem
    exact isDouble_placed old (hpoints hstart p (Array.mem_toList_iff.mp (List.of_mem_zip hpair).2))

theorem simulateForces_plots (hd : Force.UnitDraws w.draw) (iterations : Int) {law : Force.Law Value}
    (hl : law.IsDouble) (h : s.graph.Plottable) : Plots (simulateForces w (.whole iterations) law s) := by
  rw [simulateForces_eq]
  by_cases he : s.graph.slots.isEmpty
  · rw [if_pos he]
    exact plots_empty he
  · rw [if_neg he]
    obtain ⟨hends, hplotted⟩ := renewAll_seeded_plots hd h
    obtain ⟨fault, hfault, -⟩ | ⟨-, hgo⟩ := afterSeeding_cases w s (simulateSeeded w (.whole iterations) law)
    · rw [hends] at hfault
      cases hfault
    · rw [hgo]
      exact simulateSeeded_plots hd iterations hl (writable_seededGraph h.writable hends) hplotted

/-! ### Positions of Graphviz -/

theorem isDouble_of_seeded {first last : Nat} {old new : Json} (h : Seeded w first last old new)
    (hold : old.isNull = false → old.IsDouble) : new.IsDouble := by
  unfold Seeded at h
  split at h
  · obtain ⟨i, -, -, hi⟩ := h
    exact isDouble_seedOf hi
  · rename_i hset
    rw [h]
    exact hold (Bool.not_eq_true _ ▸ hset)

theorem isDouble_of_delegated {first last : Nat} {spots : List Graphviz.Spot} {n n' : Node}
    (h : Delegated w first last spots n n') (hspots : ∀ spot ∈ spots, spot.IsReal)
    (hn : (n.x.isNull = false → n.x.IsDouble) ∧ (n.y.isNull = false → n.y.IsDouble)) :
    n'.x.IsDouble ∧ n'.y.IsDouble := by
  unfold Delegated at h
  split at h
  · rename_i spot hspot
    obtain ⟨⟨x, hx⟩, ⟨y, hy⟩⟩ := hspots spot (List.mem_reverse.mp (List.mem_of_find?_eq_some hspot))
    rw [h.1, h.2, hx, hy]
    exact ⟨⟨x, rfl⟩, ⟨y, rfl⟩⟩
  · exact ⟨isDouble_of_seeded h.1 hn.1, isDouble_of_seeded h.2 hn.2⟩

theorem found_map_ok (spots : List Graphviz.Spot) : found (spots.map .ok) = spots := by
  induction spots with
  | nil => rfl
  | cons spot rest ih => exact congrArg (spot :: ·) ih

/-- What Graphviz gives are points of doubles; where it gives none, the simulation stands in. -/
theorem delegate_plots (hd : Force.UnitDraws w.draw) (hw : w.graphviz.Legible s.graph) (iterations : Int)
    (h : s.graph.Plottable) : Plots (delegate w (.whole iterations) .graphviz s) := by
  by_cases he : s.graph.slots.isEmpty
  · rw [delegate_eq, if_pos he]
    exact plots_empty he
  · obtain ⟨hends, hplotted⟩ := renewAll_seeded_plots hd h
    have hseeded := writable_seededGraph h.writable hends
    obtain ⟨spots, hran, hnone⟩ | ⟨reason, -, hfalls⟩ | ⟨hnot, -⟩ := delegate_graphviz_cases he hends
    · refine ⟨hnone, ?_⟩
      have hruns : runnerSpots w (.whole iterations) .graphviz s = .ok (spots.map .ok) := by
        rw [runnerSpots_graphviz, hran]
        rfl
      have hnodes := delegate_delegated hruns hnone
      rw [found_map_ok] at hnodes
      intro n' hn'
      obtain ⟨n, hn, hdelegated⟩ := exists_of_forall₂ hnodes hn'
      exact isDouble_of_delegated hdelegated (Graphviz.real_run hran) (h.nodes n hn)
    · rw [hfalls]
      exact simulateSeeded_plots hd iterations Strategy.isDouble_defaultLaw hseeded hplotted
    · have hlegible : w.graphviz.Legible (seededGraph w s) :=
        (Graphviz.legible_of_onlyMoved (renewAll_seeded w s).1.moved w.graphviz).mpr hw
      exact absurd ((Graphviz.absorbed_run_iff hseeded _ w.graphviz).mpr hlegible) hnot

/-! ### Layouts by name -/

/-- The strategies that names stand for. -/
def IsNamed (strategy : Strategy) : Prop :=
  strategy ∈ [.random, .circular, Strategy.default, .delegated Strategy.defaultIterations .graphviz]

theorem ofName_succeeds (name : String) : Succeeds (Strategy.ofName (.text name)) fun found => IsNamed found.1 := by
  have hkey : Succeeds (Graph.keyOf (.text name)) fun _ => True := ⟨_, rfl, trivial⟩
  apply hkey.bind
  intro key _
  cases hfind : Strategy.named.find? fun entry => key = .text entry.1 with
  | none => exact .pure (by simp [IsNamed])
  | some entry =>
    have hmem := List.mem_of_find?_eq_some hfind
    simp only [Strategy.named, List.mem_cons, List.not_mem_nil, or_false] at hmem
    rcases hmem with rfl | rfl | rfl | rfl | rfl <;> exact .pure (by simp [IsNamed])

theorem apply_plots (hd : Force.UnitDraws w.draw) (hw : w.graphviz.Legible s.graph) {strategy : Strategy}
    (hnamed : IsNamed strategy) (h : s.graph.Plottable) : Plots (apply w strategy s) := by
  simp only [IsNamed, List.mem_cons, List.not_mem_nil, or_false] at hnamed
  rcases hnamed with rfl | rfl | rfl | rfl
  · exact random_plots hd s
  · exact circle_plots h.few
  · exact simulateForces_plots hd 50 Strategy.isDouble_defaultLaw h
  · exact delegate_plots hd hw 50 h

theorem placeByName_random_plots (hd : Force.UnitDraws w.draw) (s : State) :
    Plots (placeByName w (.text "random") s) := by
  change Plots (place w .random (s.noting []))
  unfold place
  by_cases he : (s.noting []).graph.slots.isEmpty
  · rw [if_pos he]
    exact plots_empty he
  · rw [if_neg he]
    exact random_plots hd _

/-- Whatever the name, the layout comes to its end, with every node at a point of doubles. -/
theorem placeByName_legible_plots (hd : Force.UnitDraws w.draw) (hw : w.graphviz.Legible s.graph) (name : String)
    (h : s.graph.Plottable) : Plots (placeByName w (.text name) s) := by
  obtain ⟨⟨strategy, notices⟩, hfound, hnamed⟩ := ofName_succeeds name
  unfold placeByName
  dsimp only
  rw [hfound]
  change Plots (place w strategy (s.noting notices))
  unfold place
  by_cases he : (s.noting notices).graph.slots.isEmpty
  · rw [if_pos he]
    exact plots_empty he
  · rw [if_neg he]
    exact apply_plots (s := (s.noting notices).noting _) hd hw hnamed h

theorem placeByName_plots (hd : Force.UnitDraws w.draw) (hw : w.graphviz = .missing) (name : String)
    (h : s.graph.Plottable) : Plots (placeByName w (.text name) s) := by
  have hlegible : w.graphviz.Legible s.graph := by
    rw [hw]
    trivial
  exact placeByName_legible_plots hd hlegible name h

end Layout
end NodeLink
