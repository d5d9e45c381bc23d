import NodeLink.Proofs.Layout.Simulation
import Mathlib.Data.List.Forall2

/-!
# What layouts do to a graph

Whatever the strategy, a layout moves nodes and leaves everything else of a graph as it is, whether or not
it gets to its end. Where it does, every node has a position. Under the delegated layout a node is where
the runner puts it; a node that the runner does not know keeps the coordinates it had and gets random ones
for those it had not.
-/

namespace NodeLink

open Graphviz (Spot)

/-! ### Moving nodes -/

/-- The second node is the first one, moved. -/
def Node.Moved (n n' : Node) : Prop := n' = { n with x := n'.x, y := n'.y }

theorem Node.Moved.refl (n : Node) : n.Moved n := rfl

theorem Node.Moved.trans {n n' n'' : Node} (h : n.Moved n') (h' : n'.Moved n'') : n.Moved n'' := by
  rw [Node.Moved, h] at h'
  exact h'

theorem forall₂_trans {α : Type} {R : α → α → Prop} (trans : ∀ {a b c}, R a b → R b c → R a c)
    {as bs cs : List α} (h : List.Forall₂ R as bs) (h' : List.Forall₂ R bs cs) : List.Forall₂ R as cs := by
  induction h generalizing cs with
  | nil => exact h'
  | cons hab _ ih =>
    cases h' with
    | cons hbc hrest => exact .cons (trans hab hbc) (ih hrest)

theorem forall₂_and {α β : Type} {R S : α → β → Prop} {as : List α} {bs : List β} (h : List.Forall₂ R as bs)
    (h' : List.Forall₂ S as bs) : List.Forall₂ (fun a b => R a b ∧ S a b) as bs := by
  induction h with
  | nil => exact .nil
  | cons hab _ ih =>
    cases h' with
    | cons hab' hrest => exact .cons ⟨hab, hab'⟩ (ih hrest)

namespace Graph

/-- The second graph is the first one with its nodes moved. -/
structure OnlyMoved (g g' : Graph) : Prop where
  title : g'.title = g.title
  slots : List.Forall₂ (fun slot slot' => slot'.id = slot.id ∧ slot.node.Moved slot'.node) g.slots g'.slots
  edges : g'.edges = g.edges

/-- Every node has both coordinates. -/
def Placed (g : Graph) : Prop := ∀ n ∈ g.nodes, n.hasPosition = true

theorem OnlyMoved.refl (g : Graph) : g.OnlyMoved g :=
  ⟨rfl, List.forall₂_same.mpr fun _ _ => ⟨rfl, rfl⟩, rfl⟩

theorem OnlyMoved.trans {g g' g'' : Graph} (h : g.OnlyMoved g') (h' : g'.OnlyMoved g'') : g.OnlyMoved g'' := by
  refine ⟨h'.title.trans h.title, ?_, h'.edges.trans h.edges⟩
  exact forall₂_trans (fun hs hs' => ⟨hs'.1.trans hs.1, hs.2.trans hs'.2⟩) h.slots h'.slots

theorem OnlyMoved.nodes {g g' : Graph} (h : g.OnlyMoved g') : List.Forall₂ Node.Moved g.nodes g'.nodes :=
  List.forall₂_map_left_iff.mpr (List.forall₂_map_right_iff.mpr (h.slots.imp fun _ _ hs => hs.2))

theorem onlyMoved_withNodes {g : Graph} {nodes : List Node} (h : List.Forall₂ Node.Moved g.nodes nodes) :
    g.OnlyMoved (g.withNodes nodes) := by
  refine ⟨rfl, ?_, rfl⟩
  change List.Forall₂ _ g.slots (g.slots.zipWith _ nodes)
  unfold Graph.nodes at h
  generalize g.slots = slots at h ⊢
  induction slots generalizing nodes with
  | nil => exact .nil
  | cons slot slots ih =>
    obtain ⟨n, rest, hn, hrest, rfl⟩ := List.forall₂_cons_left_iff.mp h
    exact .cons ⟨rfl, hn⟩ (ih hrest)

theorem nodes_withNodes {g : Graph} {nodes : List Node} (h : List.Forall₂ Node.Moved g.nodes nodes) :
    (g.withNodes nodes).nodes = nodes := by
  unfold withNodes
  unfold Graph.nodes at h ⊢
  dsimp only
  generalize g.slots = slots at h ⊢
  induction slots generalizing nodes with
  | nil =>
    cases h
    rfl
  | cons slot slots ih =>
    obtain ⟨n, rest, -, hrest, rfl⟩ := List.forall₂_cons_left_iff.mp h
    rw [List.zipWith_cons_cons, List.map_cons, ih hrest]

end Graph

theorem hasPosition_of {n : Node} (hx : n.x.isNull = false) (hy : n.y.isNull = false) :
    n.hasPosition = true := by
  rw [Node.hasPosition, hx, hy]
  rfl

theorem isNull_of_hasPosition {n : Node} (h : n.hasPosition = true) :
    n.x.isNull = false ∧ n.y.isNull = false := by
  rw [Node.hasPosition, Bool.and_eq_true, Bool.not_eq_true', Bool.not_eq_true'] at h
  exact h

namespace Layout

/-- What a layout does to a graph: it moves nodes and nothing else, and every one of them if it gets to its
end. -/
structure Lays (g : Graph) (r : Result) : Prop where
  moved : g.OnlyMoved r.state.graph
  placed : r.fault = none → r.state.graph.Placed

theorem lays_withNodes {s : State} {nodes : List Node} {draws : Nat} {fault : Option Fault}
    (h : List.Forall₂ Node.Moved s.graph.nodes nodes)
    (hp : fault = none → ∀ n ∈ nodes, n.hasPosition = true) :
    Lays s.graph { state := s.withNodes nodes draws, fault } := by
  refine ⟨Graph.onlyMoved_withNodes h, fun hf n hn => hp hf n ?_⟩
  change n ∈ (s.graph.withNodes nodes).nodes at hn
  rwa [Graph.nodes_withNodes h] at hn

theorem lays_failed (s : State) (fault : Fault) : Lays s.graph { state := s, fault := some fault } :=
  ⟨.refl _, fun h => nomatch h⟩

theorem nodes_of_isEmpty {g : Graph} (h : g.slots.isEmpty) : g.nodes = [] := by
  rw [Graph.nodes, List.isEmpty_iff.mp h, List.map_nil]

theorem lays_empty {s : State} (h : s.graph.slots.isEmpty) : Lays s.graph { state := s } := by
  refine ⟨.refl _, fun _ n hn => ?_⟩
  rw [nodes_of_isEmpty h] at hn
  cases hn

theorem Lays.after {g : Graph} {s : State} {r : Result} (h : g.OnlyMoved s.graph) (hr : Lays s.graph r) :
    Lays g r :=
  ⟨h.trans hr.moved, hr.placed⟩

/-! ### Random coordinates -/

/-- Renewing moves nodes. If it gets to its end, it leaves on either axis what it gives there, by the draws
it has used. -/
theorem renew_nodes {coordinate : Json → Force.Drawing Json} {P : Nat → Nat → Json → Json → Prop}
    (gives : ∀ old new draws draws', (coordinate old).run draws = (.ok new, draws') →
      draws ≤ draws' ∧ P draws draws' old new)
    (mono : ∀ {first last first' last' old new}, P first last old new → first' ≤ first → last ≤ last' →
      P first' last' old new)
    {draws last : Nat} {nodes nodes' : List Node} {fault : Option Fault}
    (h : renew coordinate draws nodes = (nodes', last, fault)) :
    List.Forall₂ Node.Moved nodes nodes' ∧
      (fault = none → draws ≤ last ∧
        List.Forall₂ (fun n n' => P draws last n.x n'.x ∧ P draws last n.y n'.y) nodes nodes') := by
  fun_induction renew coordinate draws nodes generalizing nodes' last fault with
  | case1 draws =>
    cases h
    exact ⟨.nil, fun _ => ⟨Nat.le_refl _, .nil⟩⟩
  | case2 draws n rest failure draws' hx =>
    cases h
    exact ⟨List.forall₂_same.mpr fun n _ => .refl n, nofun⟩
  | case3 draws n rest x drawsX hx failure drawsY hy =>
    cases h
    exact ⟨.cons rfl (List.forall₂_same.mpr fun n _ => .refl n), nofun⟩
  | case4 draws n rest x drawsX hx y drawsY hy more lastMore failure hrest ih =>
    cases h
    obtain ⟨hm, hg⟩ := ih hrest
    refine ⟨.cons rfl hm, fun hnone => ?_⟩
    obtain ⟨hle, hmore⟩ := hg hnone
    obtain ⟨hlx, hgx⟩ := gives _ _ _ _ hx
    obtain ⟨hly, hgy⟩ := gives _ _ _ _ hy
    refine ⟨by omega, .cons ⟨mono hgx (Nat.le_refl _) (by omega), mono hgy hlx hle⟩ ?_⟩
    exact hmore.imp fun _ _ h => ⟨mono h.1 (by omega) (Nat.le_refl _), mono h.2 (by omega) (Nat.le_refl _)⟩

/-- The nodes of a graph after seeding, by the draws used for it. -/
def SeededNodes (w : World) (first last : Nat) (nodes nodes' : List Node) : Prop :=
  List.Forall₂ (fun n n' => Seeded w first last n.x n'.x ∧ Seeded w first last n.y n'.y) nodes nodes'

theorem run_seeded_gives {w : World} {old new : Json} {draws draws' : Nat}
    (h : (seeded w old).run draws = (.ok new, draws')) :
    draws ≤ draws' ∧ Seeded w draws draws' old new := by
  rw [run_seeded] at h
  unfold Seeded
  split at h
  · rename_i hn
    obtain ⟨hnew, hd⟩ := Prod.mk.inj h
    rw [if_pos hn]
    exact ⟨by omega, draws, Nat.le_refl _, by omega, hnew⟩
  · rename_i hn
    cases h
    rw [if_neg hn]
    exact ⟨Nat.le_refl _, rfl⟩

theorem run_scattered_gives {w : World} {old new : Json} {draws draws' : Nat}
    (h : (scattered w old).run draws = (.ok new, draws')) : draws ≤ draws' ∧ new.isNull = false := by
  refine ⟨?_, isNull_scattered h⟩
  rw [run_scattered] at h
  have := (Prod.mk.inj h).2
  omega

theorem hasPosition_of_seededNodes {w : World} {first last : Nat} {nodes nodes' : List Node}
    (h : SeededNodes w first last nodes nodes') : ∀ n ∈ nodes', n.hasPosition = true :=
  forall_of_forall₂ (fun hn => hasPosition_of hn.1.isNull hn.2.isNull) h

theorem renewAll_seeded (w : World) (s : State) :
    Lays s.graph (renewAll (seeded w) s) ∧ ((renewAll (seeded w) s).fault = none →
      SeededNodes w s.draws (renewAll (seeded w) s).state.draws s.graph.nodes
        (renewAll (seeded w) s).state.graph.nodes) := by
  obtain ⟨nodes, draws, fault, h⟩ : ∃ nodes draws fault,
    renew (seeded w) s.draws s.graph.nodes = (nodes, draws, fault) := ⟨_, _, _, rfl⟩
  obtain ⟨hm, hg⟩ := renew_nodes (P := Seeded w) (fun _ _ _ _ => run_seeded_gives) Seeded.mono h
  have heq : renewAll (seeded w) s = { state := s.withNodes nodes draws, fault } := by rw [renewAll, h]
  rw [heq]
  refine ⟨lays_withNodes hm fun hf => hasPosition_of_seededNodes (hg hf).2, fun hf => ?_⟩
  change SeededNodes w s.draws draws s.graph.nodes (s.graph.withNodes nodes).nodes
  rw [Graph.nodes_withNodes hm]
  exact (hg hf).2

theorem renewAll_scattered (w : World) (s : State) : Lays s.graph (renewAll (scattered w) s) := by
  obtain ⟨nodes, draws, fault, h⟩ : ∃ nodes draws fault,
    renew (scattered w) s.draws s.graph.nodes = (nodes, draws, fault) := ⟨_, _, _, rfl⟩
  obtain ⟨hm, hg⟩ := renew_nodes (P := fun _ _ _ new => new.isNull = false)
    (fun _ _ _ _ => run_scattered_gives) (fun h _ _ => h) h
  rw [renewAll, h]
  exact lays_withNodes hm fun hf => forall_of_forall₂ (fun hn => hasPosition_of hn.1 hn.2) (hg hf).2

/-- A layout that starts from seeded positions either stops with them or goes on from them. -/
theorem afterSeeding_cases (w : World) (s : State) (goOn : State → Result) :
    (∃ fault, (renewAll (seeded w) s).fault = some fault ∧
      afterSeeding w s goOn = renewAll (seeded w) s) ∨
    ((renewAll (seeded w) s).fault = none ∧
      afterSeeding w s goOn = goOn (renewAll (seeded w) s).state) := by
  unfold afterSeeding
  cases h : renewAll (seeded w) s with
  | mk state fault =>
    cases fault with
    | none => exact Or.inr ⟨rfl, rfl⟩
    | some fault => exact Or.inl ⟨fault, rfl, rfl⟩

theorem lays_afterSeeding {w : World} {s : State} {goOn : State → Result}
    (h : (renewAll (seeded w) s).state.graph.Placed →
      Lays (renewAll (seeded w) s).state.graph (goOn (renewAll (seeded w) s).state)) :
    Lays s.graph (afterSeeding w s goOn) := by
  obtain ⟨hs, -⟩ := renewAll_seeded w s
  obtain ⟨fault, -, heq⟩ | ⟨hf, heq⟩ := afterSeeding_cases w s goOn
  · rw [heq]
    exact hs
  · rw [heq]
    exact .after hs.moved (h (hs.placed hf))

/-! ### Places on a circle, and the simulation -/

theorem moved_placed (n : Node) (p : Point Value) : n.Moved (placed n p) := rfl

theorem circleNodes_eq_ok {nodes nodes' : List Node} (h : circleNodes nodes = .ok nodes') :
    List.Forall₂ (fun n n' => n.Moved n' ∧ n'.hasPosition = true) nodes nodes' := by
  unfold circleNodes at h
  obtain ⟨radius, -, h⟩ := bind_eq_ok h
  have hplaced := mapM_eq_ok h
  have hn : nodes = nodes.zipIdx.map (·.1) := by simp
  rw [hn, List.forall₂_map_left_iff]
  refine hplaced.imp fun item n' hi => ?_
  obtain ⟨p, hp, rfl⟩ := map_eq_ok hi
  obtain ⟨hx, hy⟩ := sets_circlePlace hp
  exact ⟨moved_placed _ p, hasPosition_of hx hy⟩

theorem lays_circle (s : State) : Lays s.graph (circle s) := by
  unfold circle
  split
  · rename_i nodes h
    have hc := circleNodes_eq_ok h
    exact lays_withNodes (hc.imp fun _ _ hn => hn.1) fun _ => forall_of_forall₂ (fun hn => hn.2) hc
  · exact lays_failed s _

theorem lays_moveNodes {w : World} {law : Force.Law Value} {edges : List (Nat × Nat)} {count : Nat}
    {s : State} (h : s.graph.Placed) : Lays s.graph (moveNodes w law edges count s) := by
  let start : Force.State Value := ⟨(s.graph.nodes.map centre).toArray, s.draws⟩
  have hsize := Force.size_steps law w.draw edges count start
  have hset : ∀ p ∈ (Force.steps law w.draw edges count start).1.points.toList, Force.IsSet p := by
    refine Force.isSet_steps fun p hp => ?_
    obtain ⟨n, hn, rfl⟩ := List.mem_map.mp hp
    obtain ⟨hx, hy⟩ := isNull_of_hasPosition (h n hn)
    exact ⟨Value.sets_ofJson hx, Value.sets_ofJson hy⟩
  -- Points are only moved, so there is still one for every node.
  have hlength : (Force.steps law w.draw edges count start).1.points.toList.length = s.graph.nodes.length := by
    simpa [start] using hsize
  have hmoved {nodes : List Node} {points : List (Point Value)} (hl : points.length = nodes.length)
      (hp : ∀ p ∈ points, Force.IsSet p) :
      List.Forall₂ (fun n n' => n.Moved n' ∧ n'.hasPosition = true) nodes (nodes.zipWith placed points) := by
    induction nodes generalizing points with
    | nil => exact .nil
    | cons n nodes ih =>
      cases points with
      | nil => cases hl
      | cons p points =>
        obtain ⟨hfirst, hrest⟩ := List.forall_mem_cons.mp hp
        refine .cons ⟨moved_placed n p, hasPosition_of hfirst.1 hfirst.2⟩ (ih ?_ hrest)
        exact Nat.succ.inj hl
  have hall := hmoved hlength hset
  exact lays_withNodes (hall.imp fun _ _ hn => hn.1) fun _ => forall_of_forall₂ (fun hn => hn.2) hall

theorem lays_simulateForces (w : World) (iterations : Json) (law : Force.Law Value) (s : State) :
    Lays s.graph (simulateForces w iterations law s) := by
  unfold simulateForces
  by_cases he : s.graph.slots.isEmpty
  · rw [if_pos he]
    exact lays_empty he
  · rw [if_neg he]
    refine lays_afterSeeding fun hp => ?_
    split
    · exact lays_failed _ _
    · split
      · exact ⟨.refl _, fun _ => hp⟩
      · exact lays_moveNodes hp

/-! ### Spots that a runner gives -/

/-- The spots among what a runner gives. -/
def found (spots : Spots) : List Spot := spots.filterMap Except.toOption

/-- The last of the spots for a node. -/
def spotFor? (spots : List Spot) (n : Node) : Option Spot :=
  spots.reverse.find? fun spot => n.id.key? == spot.id.key?

/-- The node at the last of its spots, if it has one. -/
def settled (spots : List Spot) (n : Node) : Node :=
  match spotFor? spots n with
  | some spot => { n with x := spot.x, y := spot.y }
  | none => n

theorem moved_settled (spots : List Spot) (n : Node) : n.Moved (settled spots n) := by
  unfold settled
  split <;> rfl

theorem settled_cons (spot : Spot) (spots : List Spot) (n : Node) :
    settled (spot :: spots) n =
      settled spots (if n.id.key? == spot.id.key? then { n with x := spot.x, y := spot.y } else n) := by
  have hlast : spotFor? (spot :: spots) n =
      (spotFor? spots n).or (if n.id.key? == spot.id.key? then some spot else none) := by
    simp only [spotFor?, List.reverse_cons, List.find?_append, List.find?_singleton]
  by_cases h : n.id.key? == spot.id.key?
  · rw [if_pos h]
    have hsame : spotFor? spots { n with x := spot.x, y := spot.y } = spotFor? spots n := rfl
    unfold settled
    rw [hlast, hsame, if_pos h]
    cases spotFor? spots n <;> rfl
  · rw [if_neg h]
    unfold settled
    rw [hlast, if_neg h, Option.or_none]

/-- Nodes are moved to spots one by one; those are the spots before the first that is none. -/
theorem moveToAll_eq {nodes nodes' : List Node} {spots : Spots} {fault : Option Fault}
    (h : moveToAll nodes spots = (nodes', fault)) :
    ∃ reached, reached <+: spots ∧ nodes' = nodes.map (settled (found reached)) ∧
      (fault = none → reached = spots) := by
  induction spots generalizing nodes with
  | nil =>
    cases h
    exact ⟨[], List.prefix_rfl, (List.map_id' _).symm, fun _ => rfl⟩
  | cons first rest ih =>
    cases first with
    | error failure =>
      cases h
      exact ⟨[], List.nil_prefix, (List.map_id' _).symm, nofun⟩
    | ok spot =>
      obtain ⟨reached, hpre, rfl, hall⟩ := ih h
      refine ⟨.ok spot :: reached, ?_, ?_, fun hf => by rw [hall hf]⟩
      · exact (List.prefix_cons_inj _).mpr hpre
      · rw [moveTo, List.map_map]
        refine List.map_congr_left fun n _ => ?_
        exact (settled_cons spot (found reached) n).symm

theorem hasPosition_settled {spots : List Spot} {n : Node} (hs : ∀ spot ∈ spots, spot.Sets)
    (hn : n.hasPosition = true) : (settled spots n).hasPosition = true := by
  unfold settled
  split
  · rename_i spot h
    have hm := List.mem_reverse.mp (List.mem_of_find?_eq_some h)
    exact hasPosition_of (hs spot hm).1 (hs spot hm).2
  · exact hn

end Layout

/-- What the runner gives for a place are two coordinates that are set. -/
def Runner.GivesPoints : Runner → Prop
  | .fixed places => ∀ place ∈ places, ∀ spot, Spot.ofPlace (.text place.1) place.2 = .ok spot → spot.Sets
  | .graphviz | .unavailable _ | .failing _ => True

/-- A runner that a strategy asks gives coordinates that are set. -/
def Strategy.GivesPoints : Strategy → Prop
  | .delegated _ runner => runner.GivesPoints
  | .random | .circular | .force .. => True

namespace Layout

theorem sets_runRunner {w : World} {g : Graph} {settings : List Dot.Attribute} {runner : Runner}
    {spots : Spots} (hr : runner.GivesPoints) (h : (runRunner w g settings runner).1 = .ok spots) :
    ∀ spot ∈ found spots, spot.Sets := by
  intro spot hspot
  obtain ⟨entry, hentry, hok⟩ := List.mem_filterMap.mp hspot
  cases entry with
  | error fault => cases hok
  | ok spot' =>
    cases hok
    cases runner with
    | graphviz =>
      obtain ⟨given, hgiven, rfl⟩ : ∃ given, (Graphviz.run g settings w.graphviz).1 = .ok given ∧
          spots = given.map .ok := by
        cases hg : (Graphviz.run g settings w.graphviz).1 with
        | error fault =>
          simp only [runRunner, hg] at h
          cases h
        | ok given =>
          simp only [runRunner, hg] at h
          cases h
          exact ⟨given, rfl, rfl⟩
      obtain ⟨spot', hm, he⟩ := List.mem_map.mp hentry
      cases he
      exact (Graphviz.real_run hgiven spot hm).sets
    | fixed places =>
      cases h
      obtain ⟨place, hm, he⟩ := List.mem_map.mp hentry
      exact hr place hm spot he
    | unavailable reason => cases h
    | failing reason => cases h

/-- The graph that a runner is asked about. -/
def seededGraph (w : World) (s : State) : Graph := (renewAll (seeded w) s).state.graph

/-- What the runner of the delegated layout gives. -/
def runnerSpots (w : World) (iterations : Json) (runner : Runner) (s : State) : Except Fault Spots :=
  (runRunner w (seededGraph w s) (Graphviz.inferSettings (seededGraph w s) iterations) runner).1

theorem forall₂_map_settled {spots : List Spot} {nodes : List Node} :
    List.Forall₂ Node.Moved nodes (nodes.map (settled spots)) :=
  List.forall₂_map_right_iff.mpr (List.forall₂_same.mpr fun n _ => moved_settled spots n)

theorem lays_moveToAll {spots : Spots} {nodes : List Node} {s : State} {fault : Option Fault}
    (hs : ∀ spot ∈ found spots, spot.Sets) (hp : s.graph.Placed)
    (h : moveToAll s.graph.nodes spots = (nodes, fault)) :
    Lays s.graph { state := s.withNodes nodes s.draws, fault } := by
  obtain ⟨reached, -, rfl, hall⟩ := moveToAll_eq h
  refine lays_withNodes forall₂_map_settled fun hf n' hn' => ?_
  obtain ⟨n, hn, rfl⟩ := List.mem_map.mp hn'
  rw [hall hf]
  exact hasPosition_settled hs (hp n hn)

/-- The state in which the runner has given its answer. -/
def asked (w : World) (iterations : Json) (runner : Runner) (s : State) : State :=
  let settings := Graphviz.inferSettings s.graph iterations
  { s.noting [.delegating s.graph.slots.length settings] with
    requests := s.requests ++ (runRunner w s.graph settings runner).2 }

theorem delegate_eq (w : World) (iterations : Json) (runner : Runner) (s : State) :
    delegate w iterations runner s = if s.graph.slots.isEmpty then { state := s } else
      afterSeeding w s fun seeded =>
        let s := asked w iterations runner seeded
        match (runRunner w seeded.graph (Graphviz.inferSettings seeded.graph iterations) runner).1 with
        | .ok spots =>
          { state := s.withNodes (moveToAll s.graph.nodes spots).1 s.draws,
            fault := (moveToAll s.graph.nodes spots).2 }
        | .error (.noLayout reason) =>
          simulateForces w iterations Strategy.defaultLaw (s.noting [.fallingBack reason])
        | .error fault => { state := s, fault := some fault } := rfl

theorem lays_delegate (w : World) (iterations : Json) {runner : Runner} (hr : runner.GivesPoints) (s : State) :
    Lays s.graph (delegate w iterations runner s) := by
  rw [delegate_eq]
  by_cases he : s.graph.slots.isEmpty
  · rw [if_pos he]
    exact lays_empty he
  · rw [if_neg he]
    refine lays_afterSeeding fun hp => ?_
    change Lays (asked w iterations runner (renewAll (seeded w) s).state).graph _
    dsimp only
    split
    · rename_i spots h
      exact lays_moveToAll (sets_runRunner hr h) hp rfl
    · rename_i reason _
      exact lays_simulateForces w iterations _
        ((asked w iterations runner (renewAll (seeded w) s).state).noting [.fallingBack reason])
    · exact lays_failed _ _

theorem lays_place (w : World) {strategy : Strategy} (hs : strategy.GivesPoints) (s : State) :
    Lays s.graph (place w strategy s) := by
  unfold place
  by_cases he : s.graph.slots.isEmpty
  · rw [if_pos he]
    exact lays_empty he
  · rw [if_neg he]
    change Lays (s.noting [.placing strategy.name s.graph.slots.length]).graph _
    cases strategy with
    | random => exact renewAll_scattered w _
    | circular => exact lays_circle _
    | force iterations law => exact lays_simulateForces w iterations law _
    | delegated iterations runner => exact lays_delegate w iterations hs _

theorem givesPoints_ofName {name : Json} {strategy : Strategy} {notices : List Notice}
    (h : Strategy.ofName name = .ok (strategy, notices)) : strategy.GivesPoints := by
  obtain ⟨key, -, h⟩ := bind_eq_ok h
  split at h
  · rename_i entry hfind
    cases h
    have hm := List.mem_of_find?_eq_some hfind
    simp only [Strategy.named, List.mem_cons, List.not_mem_nil, or_false] at hm
    rcases hm with rfl | rfl | rfl | rfl | rfl <;> trivial
  · cases h
    trivial

theorem lays_placeByName (w : World) (name : Json) (s : State) : Lays s.graph (placeByName w name s) := by
  unfold placeByName
  split
  · split
    · rename_i strategy notices h
      exact lays_place w (givesPoints_ofName h) (s.noting notices)
    · exact lays_failed s _
  · by_cases he : s.graph.slots.isEmpty
    · rw [if_pos he]
      exact lays_empty he
    · rw [if_neg he]
      exact lays_failed s _

/-- Where a node of the delegated layout ends up: at its spot, or where seeding put it. -/
def Delegated (w : World) (first last : Nat) (spots : List Spot) (n n' : Node) : Prop :=
  match spotFor? spots n with
  | some spot => n'.x = spot.x ∧ n'.y = spot.y
  | none => Seeded w first last n.x n'.x ∧ Seeded w first last n.y n'.y

theorem delegated_settled {w : World} {first last : Nat} {spots : List Spot} {n n' : Node}
    (hm : n.Moved n') (h : Seeded w first last n.x n'.x ∧ Seeded w first last n.y n'.y) :
    Delegated w first last spots n (settled spots n') := by
  have hsame : spotFor? spots n' = spotFor? spots n := by rw [hm]; rfl
  unfold Delegated settled
  rw [hsame]
  cases spotFor? spots n with
  | none => exact h
  | some spot => exact ⟨rfl, rfl⟩

theorem delegate_delegated {w : World} {iterations : Json} {runner : Runner} {s : State} {spots : Spots}
    (hr : runnerSpots w iterations runner s = .ok spots)
    (hf : (delegate w iterations runner s).fault = none) :
    List.Forall₂ (Delegated w s.draws (delegate w iterations runner s).state.draws (found spots))
      s.graph.nodes (delegate w iterations runner s).state.graph.nodes := by
  rw [delegate_eq] at hf ⊢
  by_cases he : s.graph.slots.isEmpty
  · rw [if_pos he, nodes_of_isEmpty he]
    exact .nil
  · rw [if_neg he] at hf ⊢
    obtain ⟨fault, hfault, heq⟩ | ⟨hseeded, heq⟩ := afterSeeding_cases w s _
    · rw [heq, hfault] at hf
      cases hf
    · rw [heq] at hf ⊢
      have hout : (runRunner w (renewAll (seeded w) s).state.graph
          (Graphviz.inferSettings (renewAll (seeded w) s).state.graph iterations) runner).1 = .ok spots := hr
      dsimp only at hf ⊢
      rw [hout] at hf ⊢
      obtain ⟨hs, hg⟩ := renewAll_seeded w s
      obtain ⟨reached, -, hnodes, hall⟩ :=
        moveToAll_eq (Prod.eta (moveToAll (renewAll (seeded w) s).state.graph.nodes spots)).symm
      change List.Forall₂ _ _ ((renewAll (seeded w) s).state.graph.withNodes
        (moveToAll (renewAll (seeded w) s).state.graph.nodes spots).1).nodes
      rw [hall hf] at hnodes
      rw [hnodes, Graph.nodes_withNodes forall₂_map_settled, List.forall₂_map_right_iff]
      exact (forall₂_and hs.moved.nodes (hg hseeded)).imp fun _ _ h => delegated_settled h.1 h.2

theorem place_delegated {w : World} {iterations : Json} {runner : Runner} {s : State} {spots : Spots}
    (hr : runnerSpots w iterations runner s = .ok spots)
    (hf : (place w (.delegated iterations runner) s).fault = none) :
    List.Forall₂ (Delegated w s.draws (place w (.delegated iterations runner) s).state.draws (found spots))
      s.graph.nodes (place w (.delegated iterations runner) s).state.graph.nodes := by
  unfold place at hf ⊢
  by_cases he : s.graph.slots.isEmpty
  · rw [if_pos he, nodes_of_isEmpty he]
    exact .nil
  · rw [if_neg he] at hf ⊢
    exact delegate_delegated (s := s.noting _) hr hf

/-- The names that are known, and any other, place every node of a graph and touch nothing else of it; so does
every strategy whose runner gives points. The delegated layout puts a node that its runner places exactly
there, and of any other node it seeds the coordinates that are not set. -/
theorem layouts_place_every_node (w : World) (s : State) :
    (∀ name, Lays s.graph (placeByName w name s)) ∧
    (∀ strategy : Strategy, strategy.GivesPoints → Lays s.graph (place w strategy s)) ∧
    ∀ iterations runner spots, runnerSpots w iterations runner s = .ok spots →
      (place w (.delegated iterations runner) s).fault = none →
      List.Forall₂ (Delegated w s.draws (place w (.delegated iterations runner) s).state.draws (found spots))
        s.graph.nodes (place w (.delegated iterations runner) s).state.graph.nodes :=
  ⟨fun name => lays_placeByName w name s, fun _ hs => lays_place w hs s,
    fun _ _ _ hr hf => place_delegated hr hf⟩

/-- Two nodes, of which one has half a position. -/
def halfPlaced : State :=
  { graph := { slots := [⟨.text "a", .ofId (.text "a")⟩,
      ⟨.text "b", { Node.ofId (.text "b") with x := .whole 3 }⟩] } }

/-- A runner that places one node of two, and a stranger. -/
def strangerToo : Runner :=
  .fixed [("a", .list [.whole 1, .whole 2]), ("ghost", .list [.whole 5, .whole 5])]

theorem halfPlaced_gets_placed :
    let r := place { draw := fun _ => .real 0.5 } (.delegated (.whole 50) strangerToo) halfPlaced
    r.fault = none ∧ Lays halfPlaced.graph r ∧
      List.Forall₂ (Delegated { draw := fun _ => .real 0.5 } 0 r.state.draws
          [⟨.text "a", .whole 1, .whole 2⟩, ⟨.text "ghost", .whole 5, .whole 5⟩])
        halfPlaced.graph.nodes r.state.graph.nodes := by
  have hpoints : strangerToo.GivesPoints := by
    intro place hplace spot hspot
    simp only [List.mem_cons, List.not_mem_nil, or_false] at hplace
    rcases hplace with rfl | rfl <;> cases hspot <;> exact ⟨rfl, rfl⟩
  have hfault : (place { draw := fun _ => .real 0.5 } (.delegated (.whole 50) strangerToo) halfPlaced).fault =
      none := Option.isNone_iff_eq_none.mp (by decide +kernel)
  obtain ⟨-, hlays, hdelegated⟩ := layouts_place_every_node { draw := fun _ => .real 0.5 } halfPlaced
  exact ⟨hfault, hlays (.delegated (.whole 50) strangerToo) hpoints,
    hdelegated (.whole 50) strangerToo _ rfl hfault⟩

end Layout
end NodeLink
