import Mathlib.Data.List.Basic
import Mathlib.Data.List.Nodup
import Mathlib.Data.List.Forall2
import Mathlib.Data.List.Induction
import NodeLink.Drawing.Fan
import NodeLink.Proofs.Outcome

/-!
# Groups and their fans

Grouping takes a list apart: every group has the items of one key, in order, and no key has two groups. So the
place of an edge in the group of its pair is its rank among the edges of that pair, and its curvature is the one
of its rank, wherever the edges of other pairs stand.
-/

namespace NodeLink

section
variable {ι κ : Type} [DecidableEq κ] {key : ι → κ} {items : List ι} {groups : List (κ × List ι)}

/-- The groups hold the items of a list. Each has all items of one key, in order. -/
structure TakesApart (key : ι → κ) (items : List ι) (groups : List (κ × List ι)) : Prop where
  keys : (groups.map Prod.fst).Nodup
  filled : ∀ group ∈ groups, group.2 ≠ []
  members : ∀ group ∈ groups, group.2 = items.filter (key · = group.1)
  whole : (groups.map Prod.snd).flatten.Perm items

theorem enrol_append {k : κ} {before : List (κ × List ι)} (new : k ∉ before.map Prod.fst) (item : ι)
    (after : List (κ × List ι)) : enrol k item (before ++ after) = before ++ enrol k item after := by
  induction before with
  | nil => rfl
  | cons group before ih =>
    rw [List.map_cons, List.mem_cons, not_or] at new
    rw [List.cons_append, enrol, if_neg (Ne.symm new.1), ih new.2, List.cons_append]

/-- Groups of other keys have all items of their keys when a further item has come. -/
theorem members_concat {item : ι} (h : ∀ group ∈ groups, group.2 = items.filter (key · = group.1))
    (new : key item ∉ groups.map Prod.fst) :
    ∀ group ∈ groups, group.2 = (items ++ [item]).filter (key · = group.1) := by
  intro group hg
  have other : key item ≠ group.1 := fun heq => new (List.mem_map.mpr ⟨group, hg, heq.symm⟩)
  rw [h group hg, List.filter_append]
  simp [other]

namespace TakesApart

theorem no_other {k : κ} {members : List ι} {before after : List (κ × List ι)}
    (h : TakesApart key items (before ++ (k, members) :: after)) :
    k ∉ before.map Prod.fst ∧ k ∉ after.map Prod.fst := by
  have hkeys := h.keys
  rw [List.map_append, List.map_cons, List.nodup_middle, List.nodup_cons, List.mem_append, not_or] at hkeys
  exact hkeys.1

theorem no_members {k : κ} (h : TakesApart key items groups) (new : k ∉ groups.map Prod.fst) :
    items.filter (key · = k) = [] := by
  rw [List.filter_eq_nil_iff]
  intro a ha heq
  obtain ⟨_, hmem, hin⟩ := List.mem_flatten.mp (h.whole.mem_iff.mpr ha)
  obtain ⟨group, hg, rfl⟩ := List.mem_map.mp hmem
  rw [h.members group hg, List.mem_filter, decide_eq_true_eq] at hin
  exact new (List.mem_map.mpr ⟨group, hg, hin.2.symm.trans (of_decide_eq_true heq)⟩)

theorem join {item : ι} {members : List ι} {before after : List (κ × List ι)}
    (h : TakesApart key items (before ++ (key item, members) :: after)) :
    TakesApart key (items ++ [item]) (before ++ (key item, members ++ [item]) :: after) := by
  obtain ⟨hbefore, hafter⟩ := h.no_other
  have hfilled := h.filled
  have hmembers := h.members
  have hwhole := h.whole.append_right [item]
  rw [List.forall_mem_append, List.forall_mem_cons] at hfilled hmembers
  constructor
  · simpa only [List.map_append, List.map_cons] using h.keys
  · rw [List.forall_mem_append, List.forall_mem_cons]
    exact ⟨hfilled.1, List.append_ne_nil_of_right_ne_nil _ (List.cons_ne_nil _ _), hfilled.2.2⟩
  · rw [List.forall_mem_append, List.forall_mem_cons]
    refine ⟨members_concat hmembers.1 hbefore, ?_, members_concat hmembers.2.2 hafter⟩
    simpa using hmembers.2.1
  · simp only [List.map_append, List.map_cons, List.flatten_append, List.flatten_cons, List.append_assoc]
      at hwhole ⊢
    exact ((List.perm_append_comm.append_left members).append_left _).trans hwhole

theorem begin {item : ι} (h : TakesApart key items groups) (new : key item ∉ groups.map Prod.fst) :
    TakesApart key (items ++ [item]) (groups ++ [(key item, [item])]) := by
  constructor
  · rw [List.map_append, List.map_singleton, List.nodup_append]
    refine ⟨h.keys, List.nodup_singleton _, ?_⟩
    rintro k hk _ hitem rfl
    obtain rfl : k = key item := List.mem_singleton.mp hitem
    exact new hk
  · rw [List.forall_mem_append, List.forall_mem_singleton]
    exact ⟨h.filled, List.cons_ne_nil _ _⟩
  · rw [List.forall_mem_append, List.forall_mem_singleton]
    refine ⟨members_concat h.members new, ?_⟩
    have hnone := h.no_members new
    rw [List.filter_append, hnone]
    simp
  · simpa only [List.map_append, List.map_cons, List.map_nil, List.flatten_append, List.flatten_cons,
      List.flatten_nil, List.append_nil] using h.whole.append_right [item]

theorem enrol (h : TakesApart key items groups) (item : ι) :
    TakesApart key (items ++ [item]) (enrol (key item) item groups) := by
  by_cases known : key item ∈ groups.map Prod.fst
  · obtain ⟨⟨k, members⟩, hmem, hk⟩ := List.mem_map.mp known
    obtain rfl : k = key item := hk
    obtain ⟨before, after, rfl⟩ := List.append_of_mem hmem
    rw [enrol_append h.no_other.1, NodeLink.enrol, if_pos rfl]
    exact h.join
  · have hnew := enrol_append known item []
    rw [List.append_nil] at hnew
    rw [hnew]
    exact h.begin known

end TakesApart

theorem grouped_concat (key : ι → κ) (items : List ι) (item : ι) :
    grouped key (items ++ [item]) = enrol (key item) item (grouped key items) := by
  rw [grouped, List.foldl_append]
  rfl

theorem takesApart_grouped (key : ι → κ) (items : List ι) : TakesApart key items (grouped key items) := by
  induction items using List.reverseRecOn with
  | nil => exact ⟨.nil, nofun, nofun, .nil⟩
  | append_singleton items item ih =>
    rw [grouped_concat]
    exact ih.enrol item

/-! ## Ranks -/

/-- How many of the keys before a place are the given one. -/
def rank (keys : List κ) (k : κ) (place : Nat) : Nat := (keys.take place).count k

/-- How many of the keys are the given one. -/
def mates (keys : List κ) (k : κ) : Nat := keys.count k

theorem rank_concat {keys : List κ} {k other : κ} {place : Nat} (h : place ≤ keys.length) :
    rank (keys ++ [other]) k place = rank keys k place := by
  rw [rank, rank, List.take_append_of_le_length h]

theorem rank_last (keys : List κ) (k other : κ) : rank (keys ++ [other]) k keys.length = mates keys k := by
  rw [rank_concat (Nat.le_refl _), rank, List.take_length, mates]

theorem rank_lt {keys : List κ} {k : κ} {i j : Nat} (hi : keys[i]? = some k) (hij : i < j) :
    rank keys k i < rank keys k j := by
  calc rank keys k i < rank keys k (i + 1) := by
        rw [rank, rank, List.take_add_one, hi, List.count_append]
        simp
    _ ≤ rank keys k j := (List.take_sublist_take_left hij).count_le k

theorem ranks_of_key (keys : List κ) (k : κ) :
    (keys.zipIdx.filter (·.1 = k)).map (fun m => rank keys k m.2) = List.range (mates keys k) := by
  induction keys using List.reverseRecOn with
  | nil => rfl
  | append_singleton keys other ih =>
    have hbefore : (keys.zipIdx.filter (·.1 = k)).map (fun m => rank (keys ++ [other]) k m.2) =
        List.range (mates keys k) := by
      rw [← ih]
      apply List.map_congr_left
      intro m hm
      exact rank_concat (Nat.le_of_lt (List.snd_lt_of_mem_zipIdx (List.mem_of_mem_filter hm)))
    have hlast := rank_last keys k other
    rw [List.zipIdx_append, List.zipIdx_singleton, List.filter_append, List.map_append, hbefore, Nat.zero_add]
    by_cases same : other = k
    · subst same
      simp [hlast, mates, List.range_succ]
    · simp [same, mates]

theorem rank_lt_mates {keys : List κ} {m : κ × Nat} (hm : m ∈ keys.zipIdx) :
    rank keys m.1 m.2 < mates keys m.1 := by
  have hin : m ∈ keys.zipIdx.filter (·.1 = m.1) := List.mem_filter.mpr ⟨hm, decide_eq_true rfl⟩
  rw [← List.mem_range, ← ranks_of_key]
  exact List.mem_map_of_mem hin

theorem exists_rank {keys : List κ} {k : κ} {i : Nat} (h : i < mates keys k) :
    ∃ m ∈ keys.zipIdx, m.1 = k ∧ rank keys k m.2 = i := by
  rw [← List.mem_range, ← ranks_of_key] at h
  obtain ⟨m, hm, hrank⟩ := List.mem_map.mp h
  obtain ⟨hmem, hkey⟩ := List.mem_filter.mp hm
  exact ⟨m, hmem, of_decide_eq_true hkey, hrank⟩

theorem mates_map (key : ι → κ) (items : List ι) (k : κ) :
    mates (items.map key) k = (items.filter (key · = k)).length := by
  rw [mates, List.count, List.countP_map, List.countP_eq_length_filter]
  rfl

theorem length_group (keys : List κ) (k : κ) : (keys.zipIdx.filter (·.1 = k)).length = mates keys k := by
  have hlength := congrArg List.length (ranks_of_key keys k)
  rwa [List.length_map, List.length_range] at hlength

/-- The place of a member in the group of its key is its rank. -/
theorem zipIdx_group (keys : List κ) (k : κ) :
    (keys.zipIdx.filter (·.1 = k)).zipIdx =
      (keys.zipIdx.filter (·.1 = k)).map fun m => (m, rank keys k m.2) := by
  rw [List.map_prod_left_eq_zip, ranks_of_key, List.zipIdx_eq_zip_range', length_group, List.range_eq_range']

end

theorem mem_of_lookup {ι β : Type} [DecidableEq ι] {entries : List (ι × β)} {i : ι} {b : β}
    (h : entries.lookup i = some b) : (i, b) ∈ entries := by
  obtain ⟨before, after, rfl, -⟩ := List.lookup_eq_some_iff.mp h
  exact List.mem_append_right _ List.mem_cons_self

theorem forall₂_filterMap {ι β : Type} {R : ι → β → Prop} {f : ι → Option β} {items : List ι}
    (h : ∀ item ∈ items, ∃ b, f item = some b ∧ R item b) : List.Forall₂ R items (items.filterMap f) := by
  induction items with
  | nil => exact .nil
  | cons item items ih =>
    obtain ⟨⟨b, hb, hR⟩, hrest⟩ := List.forall_mem_cons.mp h
    rw [List.filterMap_cons_some hb]
    exact .cons hR (ih hrest)

/-- Only the curvature tells the two edges apart. -/
def Edge.Bent (e e' : Edge) : Prop := e' = { e with curvature := e'.curvature }

namespace Graph

open Scalar

theorem zipIdx_pairs (edges : List Edge) :
    (edges.map Edge.pair).zipIdx = edges.zipIdx.map fun m => (m.1.pair, m.2) := by
  rw [List.zipIdx_map]
  rfl

variable {α : Type} [Scalar α] {pairs : List Pair} {edges : List Edge}

/-- The curvature of the edge in a place goes by its rank and by how many edges its pair has. -/
def Bends (pairs : List Pair) (m : Pair × Nat) (curvature : α) : Prop :=
  fanOut (ofWhole (rank pairs m.1 m.2)) (ofWhole (mates pairs m.1)) = .ok curvature

theorem groupCurvatures_eq_ok {pair : Pair} {given : List (Nat × α)}
    (h : groupCurvatures α (pairs.zipIdx.filter (·.1 = pair)) = .ok given) :
    List.Forall₂ (fun m b => b.1 = m.2 ∧ Bends pairs m b.2) (pairs.zipIdx.filter (·.1 = pair)) given := by
  have hrun := mapM_eq_ok h
  rw [zipIdx_group, List.forall₂_map_left_iff, length_group] at hrun
  have hpair : ∀ m ∈ pairs.zipIdx.filter (·.1 = pair), m.1 = pair := by
    intro m hm
    exact of_decide_eq_true (List.mem_filter.mp hm).2
  refine ((List.forall₂_and_left _ _).mpr ⟨hpair, hrun⟩).imp ?_
  rintro m b ⟨rfl, hb⟩
  obtain ⟨curvature, hcurvature, hb⟩ := bind_eq_ok hb
  cases hb
  exact ⟨rfl, hcurvature⟩

theorem given_eq_ok {given : List (List (Nat × α))}
    (h : (grouped Prod.fst pairs.zipIdx).mapM (fun group => groupCurvatures α group.2) = .ok given) :
    List.Forall₂ (fun m b => b.1 = m.2 ∧ Bends pairs m b.2)
      ((grouped Prod.fst pairs.zipIdx).map Prod.snd).flatten given.flatten := by
  apply List.rel_flatten
  rw [List.forall₂_map_left_iff]
  have hmembers := (takesApart_grouped Prod.fst pairs.zipIdx).members
  refine ((List.forall₂_and_left _ _).mpr ⟨hmembers, mapM_eq_ok h⟩).imp ?_
  rintro group bs ⟨hall, hrun⟩
  rw [hall] at hrun ⊢
  exact groupCurvatures_eq_ok hrun

/-- Every edge is bent by its rank. -/
theorem curvatures_eq_ok {cs : List α} (h : curvatures α pairs = .ok cs) :
    List.Forall₂ (Bends pairs) pairs.zipIdx cs := by
  obtain ⟨given, hgiven, h⟩ := bind_eq_ok h
  cases h
  have hall := given_eq_ok hgiven
  have hwhole := (takesApart_grouped Prod.fst pairs.zipIdx).whole
  have hplaces : List.range pairs.length = pairs.zipIdx.map Prod.snd := by
    rw [List.zipIdx_map_snd, List.range_eq_range']
  rw [hplaces, List.filterMap_map]
  apply forall₂_filterMap
  intro m hm
  obtain ⟨b, hb, hplace, -⟩ := exists_of_forall₂ hall.flip (hwhole.mem_iff.mpr hm)
  obtain ⟨c, hc⟩ := Option.isSome_iff_exists.mp
    (List.lookup_isSome_iff.mpr ⟨b, hb, beq_iff_eq.mpr hplace.symm⟩)
  refine ⟨c, hc, ?_⟩
  obtain ⟨m', hm', hplace', hbends⟩ := exists_of_forall₂ hall (mem_of_lookup hc)
  -- A place has one edge only.
  have hsame : m' = m := by
    have hfirst := List.mem_zipIdx_iff_getElem?.mp (hwhole.mem_iff.mp hm')
    rw [← hplace', List.mem_zipIdx_iff_getElem?.mp hm, Option.some.injEq] at hfirst
    exact Prod.ext hfirst.symm hplace'.symm
  rwa [hsame] at hbends

theorem length_of_curvatures {cs : List α} (h : curvatures α pairs = .ok cs) : cs.length = pairs.length := by
  rw [← (curvatures_eq_ok h).length_eq, List.length_zipIdx]

theorem curvatures_succeeds (pairs : List Pair) {P : α → Prop}
    (h : ∀ i n, i < n → n ≤ pairs.length → Succeeds (fanOut (ofWhole i) (ofWhole n)) P) :
    Succeeds (curvatures α pairs) fun cs => ∀ c ∈ cs, P c := by
  have hgroups : Succeeds ((grouped Prod.fst pairs.zipIdx).mapM fun group => groupCurvatures α group.2)
      fun given => ∀ bs ∈ given, ∀ b ∈ bs, P b.2 := by
    apply Succeeds.mapM
    intro group hgroup
    have hlength : group.2.length ≤ pairs.length := by
      rw [(takesApart_grouped Prod.fst pairs.zipIdx).members group hgroup, ← List.length_zipIdx (l := pairs)]
      exact List.length_filter_le _ _
    apply Succeeds.mapM
    intro m hm
    have hrank : m.2 < group.2.length := List.snd_lt_of_mem_zipIdx hm
    exact (h m.2 group.2.length hrank hlength).bind fun c hc => .pure hc
  apply hgroups.bind
  intro given hgiven
  apply Succeeds.pure
  intro c hc
  obtain ⟨place, -, hlookup⟩ := List.mem_filterMap.mp hc
  obtain ⟨bs, hbs, hb⟩ := List.mem_flatten.mp (mem_of_lookup hlookup)
  exact hgiven bs hbs _ hb

omit [Scalar α] in
theorem map_zipWith_mk {cs : List α} (h : cs.length = edges.length) :
    (edges.zipWith FannedEdge.mk cs).map (·.edge) = edges ∧
      (edges.zipWith FannedEdge.mk cs).map (·.curvature) = cs := by
  have hzip : edges.zipWith FannedEdge.mk cs = (edges.zip cs).map fun m => ⟨m.1, m.2⟩ := by
    rw [List.zip, List.map_zipWith]
  rw [hzip, List.map_map, List.map_map]
  exact ⟨List.map_fst_zip (Nat.le_of_eq h.symm), List.map_snd_zip (Nat.le_of_eq h)⟩

/-- The edges of a fan are those of the list, in order, and their curvatures go by their pairs. -/
theorem fan_eq_ok {fanned : List (FannedEdge α)} (h : fan α edges = .ok fanned) :
    fanned.map (·.edge) = edges ∧ curvatures α (edges.map Edge.pair) = .ok (fanned.map (·.curvature)) := by
  obtain ⟨-, -, h⟩ := bind_eq_ok h
  obtain ⟨cs, hcs, h⟩ := bind_eq_ok h
  cases h
  have hlength := length_of_curvatures hcs
  rw [List.length_map] at hlength
  obtain ⟨hedges, hcurvatures⟩ := map_zipWith_mk hlength
  rw [hedges, hcurvatures]
  exact ⟨rfl, hcs⟩

theorem fan_succeeds {P : α → Prop} (ends : ∀ e ∈ edges, e.checkEnds = .ok ())
    (h : ∀ i n, i < n → n ≤ edges.length → Succeeds (fanOut (ofWhole i) (ofWhole n)) P) :
    Succeeds (fan α edges) fun fanned => fanned.map (·.edge) = edges ∧ ∀ f ∈ fanned, P f.curvature := by
  have hends : edges.forM Edge.checkEnds = .ok () := by
    clear h
    induction edges with
    | nil => rfl
    | cons e edges ih =>
      rw [List.forall_mem_cons] at ends
      rw [List.forM_eq_forM, List.forM_cons, ends.1]
      exact ih ends.2
  obtain ⟨cs, hcs, hP⟩ := curvatures_succeeds (edges.map Edge.pair) (by rwa [List.length_map])
  have hfan : fan α edges = .ok (edges.zipWith FannedEdge.mk cs) := by
    rw [fan, hends, hcs]
    rfl
  obtain ⟨hedges, hcurvatures⟩ := fan_eq_ok hfan
  refine ⟨_, hfan, hedges, fun f hf => hP _ ?_⟩
  rw [Except.ok.inj (hcs.symm.trans hcurvatures)]
  exact List.mem_map_of_mem hf

theorem bent_fanned {edges bent : List Edge} (h : fanned edges = .ok bent) :
    List.Forall₂ Edge.Bent edges bent := by
  obtain ⟨fan, hfan, h⟩ := bind_eq_ok h
  cases h
  rw [← (fan_eq_ok hfan).1, List.forall₂_map_left_iff, List.forall₂_map_right_iff, List.forall₂_same]
  exact fun _ _ => rfl

end Graph
end NodeLink
