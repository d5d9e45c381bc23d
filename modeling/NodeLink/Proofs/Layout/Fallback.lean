import NodeLink.Proofs.Layout.Positions

/-!
# The simulation in place of a layout that is not to be had

Where its runner gives no layout, the delegated layout is the simulation of forces with the default strengths
and the same number of steps: it leaves every node in the same place and goes on in the stream of random
numbers at the same draw. The simulation seeds positions once more, but after the first seeding none is unset,
so that no draw is used up.
-/

namespace NodeLink

theorem Graph.withNodes_nodes (g : Graph) : g.withNodes g.nodes = g := by
  have hslots (slots : List Slot) :
      slots.zipWith (fun slot n => { slot with node := n }) (slots.map (·.node)) = slots := by
    induction slots with
    | nil => rfl
    | cons slot rest ih => rw [List.map_cons, List.zipWith_cons_cons, ih]
  unfold Graph.withNodes Graph.nodes
  rw [hslots]

namespace Layout

/-- Two ends of layouts that nobody can tell apart by the graph, the draws used or the fault. -/
structure SameEnd (r r' : Result) : Prop where
  graph : r.state.graph = r'.state.graph
  draws : r.state.draws = r'.state.draws
  fault : r.fault = r'.fault

/-! ### Seeding positions that are set -/

theorem run_seeded_of_set {w : World} {value : Json} (h : value.isNull = false) (draws : Nat) :
    (seeded w value).run draws = (.ok value, draws) := by
  rw [run_seeded, h]
  rfl

theorem renew_of_positions {w : World} {nodes : List Node} (h : ∀ n ∈ nodes, n.hasPosition = true)
    (draws : Nat) : renew (seeded w) draws nodes = (nodes, draws, none) := by
  induction nodes with
  | nil => rfl
  | cons n rest ih =>
    obtain ⟨hn, hrest⟩ := List.forall_mem_cons.mp h
    obtain ⟨hx, hy⟩ := isNull_of_hasPosition hn
    simp only [renew, run_seeded_of_set hx, run_seeded_of_set hy, ih hrest]

/-- Seeding a graph whose nodes all have positions does nothing and draws nothing. -/
theorem renewAll_of_placed {w : World} {s : State} (h : s.graph.Placed) :
    renewAll (seeded w) s = { state := s } := by
  unfold renewAll
  rw [renew_of_positions h]
  dsimp only [State.withNodes]
  rw [Graph.withNodes_nodes]

theorem afterSeeding_of_placed {w : World} {s : State} (h : s.graph.Placed) (goOn : State → Result) :
    afterSeeding w s goOn = goOn s := by
  unfold afterSeeding
  rw [renewAll_of_placed h]

/-! ### The simulation once positions are seeded -/

/-- The simulation from positions that are seeded. -/
def simulateSeeded (w : World) (iterations : Json) (law : Force.Law Value) (s : State) : Result :=
  match plan s.graph iterations with
  | .error fault => { state := s, fault := some fault }
  | .ok (edges, count) => if count ≤ 0 then { state := s } else moveNodes w law edges count.toNat s

theorem simulateForces_eq (w : World) (iterations : Json) (law : Force.Law Value) (s : State) :
    simulateForces w iterations law s =
      if s.graph.slots.isEmpty then { state := s } else afterSeeding w s (simulateSeeded w iterations law) :=
  rfl

theorem simulateForces_of_placed {w : World} {s : State} (he : ¬s.graph.slots.isEmpty)
    (hp : s.graph.Placed) (iterations : Json) (law : Force.Law Value) :
    simulateForces w iterations law s = simulateSeeded w iterations law s := by
  rw [simulateForces_eq, if_neg he, afterSeeding_of_placed hp]

/-- Only the graph and the draws used so far count for what the simulation does. -/
theorem sameEnd_simulateSeeded (w : World) (iterations : Json) (law : Force.Law Value) {s s' : State}
    (hg : s.graph = s'.graph) (hd : s.draws = s'.draws) :
    SameEnd (simulateSeeded w iterations law s) (simulateSeeded w iterations law s') := by
  unfold simulateSeeded
  rw [hg]
  cases plan s'.graph iterations with
  | error fault => exact ⟨hg, hd, rfl⟩
  | ok planned =>
    dsimp only
    split
    · exact ⟨hg, hd, rfl⟩
    · unfold moveNodes State.withNodes
      rw [hg, hd]
      exact ⟨rfl, rfl, rfl⟩

theorem slots_of_onlyMoved {g g' : Graph} (h : g.OnlyMoved g') (he : ¬g.slots.isEmpty) :
    ¬g'.slots.isEmpty := by
  rw [List.isEmpty_iff_length_eq_zero] at he ⊢
  rwa [← h.slots.length_eq]

/-- The state from which the simulation goes on where the runner gives no layout. -/
def fallen (w : World) (iterations : Json) (runner : Runner) (reason : String) (s : State) : State :=
  (asked w iterations runner (renewAll (seeded w) s).state).noting [.fallingBack reason]

/-- A delegated layout that has seeded positions and gets no layout goes on with the simulation. What has been
noted and asked meanwhile, the simulation does not look at. -/
theorem delegate_of_noLayout {w : World} {iterations : Json} {runner : Runner} {reason : String} {s : State}
    (he : ¬s.graph.slots.isEmpty) (hf : (renewAll (seeded w) s).fault = none)
    (h : runnerSpots w iterations runner s = .error (.noLayout reason)) :
    delegate w iterations runner s =
      simulateSeeded w iterations Strategy.defaultLaw (fallen w iterations runner reason s) := by
  obtain ⟨hlays, -⟩ := renewAll_seeded w s
  have hgo : simulateForces w iterations Strategy.defaultLaw (fallen w iterations runner reason s) =
      simulateSeeded w iterations Strategy.defaultLaw (fallen w iterations runner reason s) :=
    simulateForces_of_placed (s := fallen w iterations runner reason s) (slots_of_onlyMoved hlays.moved he)
      (hlays.placed hf) iterations _
  rw [delegate_eq, if_neg he, ← hgo]
  obtain ⟨fault, hfault, -⟩ | ⟨-, heq⟩ := afterSeeding_cases w s _
  · rw [hfault] at hf
    cases hf
  · rw [heq]
    unfold runnerSpots seededGraph at h
    dsimp only
    rw [h]
    rfl

/-- For every graph, wherever its nodes are, for every number of steps and every stream, the delegated layout
whose runner gives no layout ends as the simulation does: with the same graph, after the same number of draws,
and with the same fault if there is one. -/
theorem fallback_is_simulation (w : World) (iterations : Json) (runner : Runner) (s : State)
    (h : ∃ reason, runnerSpots w iterations runner s = .error (.noLayout reason)) :
    SameEnd (apply w (.delegated iterations runner) s)
      (apply w (.force iterations Strategy.defaultLaw) s) := by
  obtain ⟨reason, hreason⟩ := h
  change SameEnd (delegate w iterations runner s) (simulateForces w iterations Strategy.defaultLaw s)
  by_cases he : s.graph.slots.isEmpty
  · rw [delegate_eq, simulateForces_eq, if_pos he, if_pos he]
    exact ⟨rfl, rfl, rfl⟩
  obtain ⟨fault, hf, hsim⟩ | ⟨hf, hsim⟩ :=
    afterSeeding_cases w s (simulateSeeded w iterations Strategy.defaultLaw)
  · -- Where seeding fails, neither layout comes any further.
    rw [delegate_eq, simulateForces_eq, if_neg he, if_neg he, hsim]
    obtain ⟨-, -, hdel⟩ | ⟨hnone, -⟩ := afterSeeding_cases w s _
    · rw [hdel]
      exact ⟨rfl, rfl, rfl⟩
    · rw [hf] at hnone
      cases hnone
  · rw [delegate_of_noLayout he hf hreason, simulateForces_eq, if_neg he, hsim]
    exact sameEnd_simulateSeeded w iterations _ rfl rfl

/-- Two nodes in one place and a third that has half a position. -/
def crowded : State :=
  { graph := { slots := [⟨.text "a", { Node.ofId (.text "a") with x := .whole 1, y := .whole 1 }⟩,
      ⟨.text "b", { Node.ofId (.text "b") with x := .whole 1, y := .whole 1 }⟩,
      ⟨.text "c", { Node.ofId (.text "c") with x := .whole 3 }⟩] } }

theorem crowded_falls_back :
    runnerSpots { draw := fun _ => .real 0.5 } (.whole 2) (.unavailable "no such program") crowded =
        .error (.noLayout "no such program") ∧
      SameEnd (apply { draw := fun _ => .real 0.5 } (.delegated (.whole 2) (.unavailable "no such program")) crowded)
        (apply { draw := fun _ => .real 0.5 } (.force (.whole 2) Strategy.defaultLaw) crowded) :=
  ⟨rfl, fallback_is_simulation _ _ _ _ ⟨_, rfl⟩⟩

end Layout
end NodeLink
