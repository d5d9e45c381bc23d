import NodeLink.Drawing.Fan
import NodeLink.Layout.Strategy
import NodeLink.Proofs.Graph.Building
import NodeLink.Proofs.Outcome

/-!
# Who pushes and who pulls

Every two points push each other, and an edge pulls if both its ends are nodes of the graph and are not equal. So
self-loops and edges with a missing end do not pull, and parallel edges pull one by one.
-/

namespace NodeLink

namespace Force

theorem mem_pairs_iff {n : Nat} {pair : Nat × Nat} : pair ∈ pairs n ↔ pair.1 < pair.2 ∧ pair.2 < n := by
  obtain ⟨i, j⟩ := pair
  simp only [pairs, List.mem_flatMap, List.mem_range, List.mem_map, Prod.mk.injEq, List.mem_drop_iff_getElem,
    List.getElem_range, List.length_range]
  constructor
  · rintro ⟨i, hi, j, ⟨offset, hj, rfl⟩, rfl, rfl⟩
    constructor <;> omega
  · rintro ⟨hlt, hn⟩
    refine ⟨i, by omega, j, ⟨j - (i + 1), by omega, by omega⟩, rfl, rfl⟩

end Force

namespace Graph

/-- The place of the node with an id. -/
def placeOf? (g : Graph) (id : Json) : Option Nat := id.key?.bind (Layout.indexOf? g.slots)

/-- The places of the ends of an edge that pulls. -/
def pulling? (g : Graph) (e : Edge) : Option (Nat × Nat) := do
  let source ← g.placeOf? e.source
  let target ← g.placeOf? e.target
  if e.source.equal e.target then none else some (source, target)

/-- The edges that pull, by the places of their ends. -/
def pulls (g : Graph) : List (Nat × Nat) := g.edges.filterMap g.pulling?

variable {g : Graph}

theorem placeOf?_lt {id : Json} {place : Nat} (h : g.placeOf? id = some place) : place < g.slots.length := by
  obtain ⟨key, -, hplace⟩ := Option.bind_eq_some_iff.mp h
  obtain ⟨hlt, -⟩ := List.findIdx?_eq_some_iff_getElem.mp hplace
  exact hlt

theorem pulling?_lt {e : Edge} {edge : Nat × Nat} (h : g.pulling? e = some edge) :
    edge.1 < g.slots.length ∧ edge.2 < g.slots.length := by
  obtain ⟨source, hsource, h⟩ := Option.bind_eq_some_iff.mp h
  obtain ⟨target, htarget, h⟩ := Option.bind_eq_some_iff.mp h
  split at h
  · cases h
  · cases h
    exact ⟨placeOf?_lt hsource, placeOf?_lt htarget⟩

theorem pulls_below {n : Nat} (placed : n = g.slots.length) :
    ∀ edge ∈ g.pulls, edge.1 < n ∧ edge.2 < n := by
  intro edge hedge
  obtain ⟨e, -, he⟩ := List.mem_filterMap.mp hedge
  rw [placed]
  exact pulling?_lt he

end Graph

namespace Layout

variable {g : Graph}

theorem keys_of_checkEnds {e : Edge} (h : e.checkEnds = .ok ()) :
    ∃ source target, e.source.key? = some source ∧ e.target.key? = some target := by
  obtain ⟨_, hsource, htarget⟩ := bind_eq_ok h
  obtain ⟨source, hsource, -⟩ := map_eq_ok hsource
  obtain ⟨target, htarget, -⟩ := map_eq_ok htarget
  exact ⟨source, target, Graph.keyOf_eq_ok.mp hsource, Graph.keyOf_eq_ok.mp htarget⟩

theorem spring?_eq {e : Edge} (h : e.checkEnds = .ok ()) : spring? g.slots e = .ok (g.pulling? e) := by
  obtain ⟨source, target, hs, ht⟩ := keys_of_checkEnds h
  refine (bind_of_ok (Graph.keyOf_eq_ok.mpr hs) _).trans ?_
  rw [Graph.pulling?, Graph.placeOf?, Graph.placeOf?, hs, ht, Option.bind_some, Option.bind_some]
  cases indexOf? g.slots source with
  | none => rfl
  | some i =>
    refine (bind_of_ok (Graph.keyOf_eq_ok.mpr ht) _).trans ?_
    cases indexOf? g.slots target with
    | none => rfl
    | some j => rfl

theorem springs_eq (ends : ∀ e ∈ g.edges, e.checkEnds = .ok ()) : springs g = .ok g.pulls := by
  have hedges : g.edges.mapM (spring? g.slots) = .ok (g.edges.map g.pulling?) := by
    apply mapM_of_forall₂
    rw [List.forall₂_map_right_iff]
    exact List.forall₂_same.mpr fun e he => spring?_eq (ends e he)
  refine (bind_of_ok hedges _).trans ?_
  rw [List.filterMap_map]
  rfl

theorem plan_eq (ends : ∀ e ∈ g.edges, e.checkEnds = .ok ()) (iterations : Int) :
    plan g (.whole iterations) = .ok (g.pulls, iterations) := by
  rw [plan, springs_eq ends]
  rfl

end Layout

/-- A graph of which nothing is given but the names of the nodes and the ends of the edges. -/
def Graph.sketch (names : List String) (ends : List (String × String)) : Graph where
  slots := names.map fun name => ⟨.text name, .ofId (.text name)⟩
  edges := ends.map fun pair => .made (.text pair.1) (.text pair.2) .null (.whole 1) .line .null .null

theorem Graph.checkEnds_sketch (names : List String) (ends : List (String × String)) :
    ∀ e ∈ (sketch names ends).edges, e.checkEnds = .ok () := by
  intro e he
  obtain ⟨pair, -, rfl⟩ := List.mem_map.mp he
  rfl

end NodeLink
