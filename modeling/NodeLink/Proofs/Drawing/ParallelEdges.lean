import NodeLink.Proofs.Drawing.Fans
import NodeLink.Proofs.Geometry.Exact

/-!
# Parallel edges

Over the reals the edges of every ordered pair of nodes are fanned out evenly: their curvatures go up in the
order of the list by equal steps, mirror each other around zero, and go by the edges of that pair alone.
-/

namespace NodeLink

/-- The curvature of edge `i` of `n` parallel ones. -/
noncomputable def spread (i n : ℕ) : ℝ := (i - (n - 1) / (2 : ℕ)) * 0.8

theorem spread_eq (i n : ℕ) : spread i n = (i - (n - 1) / 2) * 0.8 := by
  rw [spread, Nat.cast_ofNat]

theorem fanOut_spread {i n : ℕ} (h : i < n) :
    fanOut (Scalar.ofWhole i : ℝ) (Scalar.ofWhole n) = .ok (spread i n) := by
  rw [fanOut_exact]
  change Except.ok (if (n : ℝ) ≤ 1 then 0 else ((i : ℝ) - (n - 1) / 2) * 0.8) = _
  by_cases single : (n : ℝ) ≤ 1
  · have hn : n = 1 := le_antisymm (by exact_mod_cast single) (Nat.lt_of_le_of_lt (Nat.zero_le i) h)
    have hi : i = 0 := by omega
    rw [if_pos single, spread_eq, hn, hi]
    norm_num
  · rw [if_neg single, spread_eq]

theorem spread_lt {i j : ℕ} (h : i < j) (n : ℕ) : spread i n < spread j n := by
  have : (i : ℝ) < j := by exact_mod_cast h
  rw [spread_eq, spread_eq]
  linarith

theorem spread_mirrored {i n : ℕ} (h : i < n) : spread (n - 1 - i) n = -spread i n := by
  rw [spread_eq, spread_eq, Nat.sub_sub, Nat.cast_sub (by omega)]
  push_cast
  ring

/-- The curvatures of `n` parallel edges, in order. -/
noncomputable def spreads (n : ℕ) : List ℝ := (List.range n).map (spread · n)

/-- The curvatures of parallel edges go up, and from behind they are the opposites of what they are from the
front. -/
structure FansOut (cs : List ℝ) : Prop where
  rising : cs.Pairwise (· < ·)
  mirrored : cs.reverse = cs.map (-·)
  balanced : cs.sum = 0

theorem reverse_spreads (n : ℕ) : (spreads n).reverse = (spreads n).map (-·) := by
  apply List.ext_getElem
  · rw [List.length_reverse, List.length_map]
  · intro i h _
    rw [List.length_reverse, spreads, List.length_map, List.length_range] at h
    simp only [spreads, List.getElem_reverse, List.getElem_map, List.getElem_range, List.length_map,
      List.length_range]
    exact spread_mirrored h

theorem fansOut_spreads (n : ℕ) : FansOut (spreads n) where
  rising := by
    rw [spreads, List.pairwise_map]
    exact List.pairwise_lt_range.imp fun h => spread_lt h n
  mirrored := reverse_spreads n
  balanced := by
    have hsum := congrArg List.sum (reverse_spreads n)
    rw [List.sum_reverse, ← List.sum_neg] at hsum
    linarith

namespace Graph

variable {edges : List Edge}

/-- The curvature that the edge in a place gets. -/
noncomputable def curvatureAt (pairs : List Pair) (m : Pair × ℕ) : ℝ :=
  spread (rank pairs m.1 m.2) (mates pairs m.1)

theorem curvatures_exact (pairs : List Pair) :
    curvatures ℝ pairs = .ok (pairs.zipIdx.map (curvatureAt pairs)) := by
  obtain ⟨cs, hcs, -⟩ := curvatures_succeeds (α := ℝ) pairs (P := fun _ => True)
    fun i n h _ => ⟨_, fanOut_spread h, trivial⟩
  have hranks : ∀ m ∈ pairs.zipIdx, rank pairs m.1 m.2 < mates pairs m.1 := fun m => rank_lt_mates
  have hall := (List.forall₂_and_left _ _).mpr ⟨hranks, curvatures_eq_ok hcs⟩
  have hexact : pairs.zipIdx.map (curvatureAt pairs) = cs := by
    rw [← List.forall₂_eq_eq_eq, List.forall₂_map_left_iff]
    refine hall.imp ?_
    rintro m c ⟨hrank, hbends⟩
    rw [Bends, fanOut_spread hrank] at hbends
    exact Except.ok.inj hbends
  rw [hcs, hexact]

/-- The edges of a list, each with the curvature of its place. -/
noncomputable def exactFan (edges : List Edge) : List (FannedEdge ℝ) :=
  edges.zipIdx.map fun m => ⟨m.1, curvatureAt (edges.map Edge.pair) (m.1.pair, m.2)⟩

theorem map_edge_exactFan (edges : List Edge) : (exactFan edges).map (·.edge) = edges := by
  rw [exactFan, List.map_map]
  exact List.zipIdx_map_fst 0 edges

theorem map_curvature_exactFan (edges : List Edge) :
    curvatures ℝ (edges.map Edge.pair) = .ok ((exactFan edges).map (·.curvature)) := by
  rw [curvatures_exact, zipIdx_pairs, exactFan, List.map_map, List.map_map]
  rfl

theorem fanned_ext {fanned fanned' : List (FannedEdge ℝ)}
    (hedges : fanned.map (·.edge) = fanned'.map (·.edge))
    (hcurvatures : fanned.map (·.curvature) = fanned'.map (·.curvature)) : fanned = fanned' := by
  have htold (fanned : List (FannedEdge ℝ)) :
      (fanned.map (·.edge)).zipWith FannedEdge.mk (fanned.map (·.curvature)) = fanned := by
    rw [List.zipWith_map, List.zipWith_self, List.map_id']
  rw [← htold fanned, hedges, hcurvatures, htold]

theorem exact_of_fan {fanned : List (FannedEdge ℝ)} (h : fan ℝ edges = .ok fanned) :
    fanned = exactFan edges := by
  obtain ⟨hedges, hcurvatures⟩ := fan_eq_ok h
  rw [map_curvature_exactFan] at hcurvatures
  exact fanned_ext (hedges.trans (map_edge_exactFan edges).symm) (Except.ok.inj hcurvatures).symm

theorem fan_exact (ends : ∀ e ∈ edges, e.checkEnds = .ok ()) : fan ℝ edges = .ok (exactFan edges) := by
  obtain ⟨fanned, hfan, -⟩ := fan_succeeds (α := ℝ) (P := fun _ => True) ends
    fun i n h _ => ⟨_, fanOut_spread h, trivial⟩
  rw [hfan, exact_of_fan hfan]

/-- The edges of a pair have the curvatures of as many parallel edges, in order. -/
theorem curvatures_of_pair (edges : List Edge) (pair : Pair) :
    ((exactFan edges).filter (·.edge.pair = pair)).map (·.curvature) =
      spreads (edges.filter (·.pair = pair)).length := by
  have hranks := ranks_of_key (edges.map Edge.pair) pair
  rw [zipIdx_pairs, List.filter_map, List.map_map] at hranks
  rw [exactFan, List.filter_map, List.map_map, spreads, ← mates_map, ← hranks, List.map_map]
  apply List.map_congr_left
  intro m hm
  have hpair : m.1.pair = pair := of_decide_eq_true (List.mem_filter.mp hm).2
  simp only [Function.comp_def, curvatureAt, hpair]

theorem filter_edges (edges : List Edge) (pair : Pair) :
    ((exactFan edges).filter (·.edge.pair = pair)).map (·.edge) = edges.filter (·.pair = pair) := by
  conv_rhs => rw [← map_edge_exactFan edges, List.filter_map]
  rfl

/-- The edges of a pair are bent alike in all lists that have the same edges of this pair. -/
theorem fan_of_pair {edges' : List Edge} {pair : Pair}
    (same : edges'.filter (·.pair = pair) = edges.filter (·.pair = pair)) :
    (exactFan edges').filter (·.edge.pair = pair) = (exactFan edges).filter (·.edge.pair = pair) := by
  apply fanned_ext
  · rw [filter_edges, filter_edges, same]
  · rw [curvatures_of_pair, curvatures_of_pair, same]

theorem curvature_in_place {place : ℕ} {f : FannedEdge ℝ} (h : (exactFan edges)[place]? = some f) :
    f.curvature = curvatureAt (edges.map Edge.pair) (f.edge.pair, place) := by
  rw [exactFan, List.getElem?_map, List.getElem?_zipIdx, Option.map_map, Option.map_eq_some_iff] at h
  obtain ⟨e, -, rfl⟩ := h
  rw [Function.comp_apply, Nat.zero_add]

/-- Fanning out gives every edge of a list the curvature of its rank among the edges of its ordered pair, and
changes nothing else. The edges are grouped by pairs, no edge is lost, and those of a pair are fanned out evenly
around zero, however the edges of other pairs stand. -/
theorem parallel_edges_fan_out (edges : List Edge) (ends : ∀ e ∈ edges, e.checkEnds = .ok ()) :
    ∃ fanned, fan ℝ edges = .ok fanned ∧ fanned.map (·.edge) = edges ∧
      (∀ place f, fanned[place]? = some f →
        f.curvature = (rank (edges.map Edge.pair) f.edge.pair place -
          ((mates (edges.map Edge.pair) f.edge.pair : ℝ) - 1) / 2) * 0.8) ∧
      (∀ pair, FansOut ((fanned.filter (·.edge.pair = pair)).map (·.curvature))) ∧
      TakesApart (·.edge.pair) fanned (grouped (·.edge.pair) fanned) ∧
      (∀ edges' fanned' pair, fan ℝ edges' = .ok fanned' →
        edges'.filter (·.pair = pair) = edges.filter (·.pair = pair) →
        fanned'.filter (·.edge.pair = pair) = fanned.filter (·.edge.pair = pair)) ∧
      ∀ bent, Graph.fanned edges = .ok bent →
        List.Forall₂ Edge.Bent edges bent ∧
          ∃ groups, TakesApart Edge.pair bent groups ∧ pairGroups bent = groups.map (·.2) := by
  refine ⟨exactFan edges, fan_exact ends, map_edge_exactFan edges, ?_, ?_, takesApart_grouped _ _, ?_, ?_⟩
  · intro place f hf
    rw [curvature_in_place hf]
    exact spread_eq _ _
  · intro pair
    rw [curvatures_of_pair]
    exact fansOut_spreads _
  · intro edges' fanned' pair hfan same
    rw [exact_of_fan hfan]
    exact fan_of_pair same
  · intro bent hbent
    exact ⟨bent_fanned hbent, _, takesApart_grouped _ _, rfl⟩

/-- An edge that connects two nodes of the given names. -/
def link (source target : String) : Edge :=
  { id := .text (source ++ target), source := .text source, target := .text target }

/-- Three edges from one node to another, with edges of other pairs in between. -/
def tangled : List Edge := [link "A" "B", link "B" "A", link "A" "B", link "A" "C", link "A" "B"]

theorem tangled_ends : ∀ e ∈ tangled, e.checkEnds = .ok () := by
  simp only [tangled, List.forall_mem_cons]
  exact ⟨rfl, rfl, rfl, rfl, rfl, nofun⟩

theorem tangled_edges_fan_out :
    (∀ e ∈ tangled, e.checkEnds = .ok ()) ∧
      ∃ fanned, fan ℝ tangled = .ok fanned ∧ fanned.map (·.edge) = tangled ∧
        (∀ f, fanned[4]? = some f → f.curvature = (0.8 : ℝ)) ∧
        FansOut ((fanned.filter (·.edge.pair = (link "A" "B").pair)).map (·.curvature)) := by
  obtain ⟨fanned, hfan, hedges, hplaces, hpairs, -⟩ := parallel_edges_fan_out tangled tangled_ends
  refine ⟨tangled_ends, fanned, hfan, hedges, ?_, hpairs _⟩
  intro f hf
  have hedge : f.edge = link "A" "B" := by
    have hlast := congrArg (·[4]?) hedges
    simp only [List.getElem?_map, hf] at hlast
    exact Option.some.inj hlast
  have hrank : rank (tangled.map Edge.pair) (link "A" "B").pair 4 = 2 := by decide
  have hmates : mates (tangled.map Edge.pair) (link "A" "B").pair = 3 := by decide
  rw [hplaces 4 f hf, hedge, hrank, hmates]
  norm_num

end Graph
end NodeLink
