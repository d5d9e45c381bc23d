import NodeLink.Proofs.Drawing.Fans
import NodeLink.Proofs.Graph.Building

/-!
# Numbers of parallel edges

An edge that comes without an id is named after its two ends, and further edges of the same ordered pair get
numbers. Between nodes whose names have neither a dash nor a hash mark, the names of different pairs never meet,
so the numbers count the edges of each pair by themselves.
-/

namespace NodeLink

/-- A text without the marks that put the ids of edges together. -/
def Json.Unmarked (id : Json) : Prop := ∃ name, id = .text name ∧ '-' ∉ name.toList ∧ '#' ∉ name.toList

namespace Edge

/-- An edge that comes without an id of its own, between nodes with unmarked names. -/
structure Unnamed (e : Edge) : Prop where
  made : ∃ id, id.isGiven = false ∧ e = Edge.made e.source e.target e.label e.size e.kind id e.color
  source : e.source.Unmarked
  target : e.target.Unmarked

/-- The id of the edge that is number `k` of its pair. -/
def ordinalId (e : Edge) (k : Nat) : String := if k ≤ 1 then derivedId e.source e.target else e.numberedId k

theorem Unnamed.id {e : Edge} (h : e.Unnamed) : e.id = .text (e.ordinalId 1) := by
  obtain ⟨id, hid, he⟩ := h.made
  rw [he]
  simp [Edge.made, Json.orElse, hid, ordinalId]

theorem ordinalId_of_two_le {e : Edge} {k : Nat} (h : 2 ≤ k) : e.ordinalId k = e.numberedId k :=
  if_neg (by omega)

theorem derivedId_text (source target : String) :
    derivedId (.text source) (.text target) = source ++ "-" ++ target := by
  simp [derivedId, Fault.textOf, Json.spelled]

theorem ordinalId_text {e : Edge} {source target : String} (hs : e.source = .text source)
    (ht : e.target = .text target) (k : Nat) :
    e.ordinalId k =
      if k ≤ 1 then source ++ "-" ++ target else source ++ "-" ++ target ++ "#" ++ toString k := by
  rw [ordinalId, numberedId, hs, ht, derivedId_text]

/-- What stands behind the two names in an ordinal id. -/
def ending (k : Nat) : List Char := if k ≤ 1 then [] else '#' :: (toString k).toList

theorem toList_ordinalId {e : Edge} {source target : String} (hs : e.source = .text source)
    (ht : e.target = .text target) (k : Nat) :
    (e.ordinalId k).toList = source.toList ++ '-' :: (target.toList ++ ending k) := by
  rw [ordinalId_text hs ht, ending]
  split <;> simp

theorem mark_not_in_number {mark : Char} (h : mark.isDigit = false) (k : Nat) : mark ∉ (toString k).toList := by
  intro hm
  rw [Nat.toString_eq_repr, Nat.toList_repr] at hm
  have hdigit := Nat.isDigit_of_mem_toDigits (by decide) (by decide) hm
  rw [h] at hdigit
  cases hdigit

theorem dash_not_in_ending (k : Nat) : '-' ∉ ending k := by
  rw [ending]
  split
  · exact List.not_mem_nil
  · rw [List.mem_cons, not_or]
    exact ⟨by decide, mark_not_in_number rfl k⟩

theorem ending_injective {cs ds : List Char} (hc : '#' ∉ cs) (hd : '#' ∉ ds) {j k : Nat} (hj : 1 ≤ j)
    (hk : 1 ≤ k) (h : cs ++ ending j = ds ++ ending k) : cs = ds ∧ j = k := by
  by_cases hj1 : j ≤ 1 <;> by_cases hk1 : k ≤ 1
  · simp only [ending, if_pos hj1, if_pos hk1, List.append_nil] at h
    exact ⟨h, by omega⟩
  · simp only [ending, if_pos hj1, if_neg hk1, List.append_nil] at h
    rw [h] at hc
    exact absurd (List.mem_append_right _ List.mem_cons_self) hc
  · simp only [ending, if_neg hj1, if_pos hk1, List.append_nil] at h
    rw [← h] at hd
    exact absurd (List.mem_append_right _ List.mem_cons_self) hd
  · simp only [ending, if_neg hj1, if_neg hk1] at h
    obtain ⟨hcd, -, hnumber⟩ := (List.append_cons_inj_of_notMem hc (mark_not_in_number rfl j)).mp h
    exact ⟨hcd, Text.toString_injective (String.toList_inj.mp hnumber)⟩

/-- Ordinal ids of edges between unmarked names tell pairs and numbers apart. -/
theorem ordinalId_eq_iff {d e : Edge} (hd : d.Unnamed) (he : e.Unnamed) {j k : Nat} (hj : 1 ≤ j)
    (hk : 1 ≤ k) : d.ordinalId j = e.ordinalId k ↔ d.pair = e.pair ∧ j = k := by
  obtain ⟨s, hs, hsdash, -⟩ := hd.source
  obtain ⟨t, ht, htdash, hthash⟩ := hd.target
  obtain ⟨s', hs', hsdash', -⟩ := he.source
  obtain ⟨t', ht', htdash', hthash'⟩ := he.target
  have hpair : d.pair = e.pair ↔ s = s' ∧ t = t' := by
    simp [pair, hs, ht, hs', ht', Json.key?]
  rw [hpair]
  constructor
  · intro h
    have htext := congrArg String.toList h
    rw [toList_ordinalId hs ht, toList_ordinalId hs' ht'] at htext
    have hbehind : '-' ∉ t.toList ++ ending j := by
      rw [List.mem_append, not_or]
      exact ⟨htdash, dash_not_in_ending j⟩
    obtain ⟨hsource, -, hrest⟩ := (List.append_cons_inj_of_notMem hsdash hbehind).mp htext
    obtain ⟨htarget, hnumber⟩ := ending_injective hthash hthash' hj hk hrest
    exact ⟨⟨String.toList_inj.mp hsource, String.toList_inj.mp htarget⟩, hnumber⟩
  · rintro ⟨⟨rfl, rfl⟩, rfl⟩
    rw [ordinalId_text hs ht, ordinalId_text hs' ht']

end Edge

namespace Graph

/-- The edges of a row with the ids by their numbers within their pairs. -/
def numbered (row : List Edge) : List Edge :=
  row.zipIdx.map fun m => { m.1 with id := .text (m.1.ordinalId (rank (row.map Edge.pair) m.1.pair m.2 + 1)) }

theorem numbered_concat (row : List Edge) (e : Edge) :
    numbered (row ++ [e]) =
      numbered row ++ [{ e with id := .text (e.ordinalId (mates (row.map Edge.pair) e.pair + 1)) }] := by
  have hbefore : ∀ m ∈ row.zipIdx, rank ((row ++ [e]).map Edge.pair) m.1.pair m.2 =
      rank (row.map Edge.pair) m.1.pair m.2 := by
    intro m hm
    have hplace := List.snd_lt_of_mem_zipIdx hm
    rw [List.map_append, List.map_singleton, rank_concat]
    rw [List.length_map]
    omega
  have hlast : rank ((row ++ [e]).map Edge.pair) e.pair row.length = mates (row.map Edge.pair) e.pair := by
    have hrank := rank_last (row.map Edge.pair) e.pair e.pair
    rwa [List.length_map, ← List.map_singleton, ← List.map_append] at hrank
  rw [numbered, List.zipIdx_append, List.map_append, List.zipIdx_singleton, List.map_singleton, Nat.zero_add,
    hlast]
  congr 1
  apply List.map_congr_left
  intro m hm
  rw [hbefore m hm]

theorem getElem?_numbered {row : List Edge} {place : Nat} {e : Edge} (h : row[place]? = some e) :
    (numbered row)[place]? =
      some { e with id := .text (e.ordinalId (rank (row.map Edge.pair) e.pair place + 1)) } := by
  rw [numbered, List.getElem?_map, List.getElem?_zipIdx, h]
  simp

variable {g : Graph} {row : List Edge} {e : Edge}

/-- Among numbered edges exactly the numbers up to the count of a pair are taken. -/
theorem taken_iff (hg : g.edges = numbered row) (hrow : ∀ d ∈ row, d.Unnamed) (he : e.Unnamed) {k : Nat}
    (hk : 1 ≤ k) : g.Taken (.text (e.ordinalId k)) ↔ k ≤ mates (row.map Edge.pair) e.pair := by
  have hmember : g.Taken (.text (e.ordinalId k)) ↔
      ∃ m ∈ row.zipIdx, m.1.ordinalId (rank (row.map Edge.pair) m.1.pair m.2 + 1) = e.ordinalId k := by
    simp [Taken, edgeKeys, hg, numbered, Json.key?]
  rw [hmember]
  constructor
  · rintro ⟨m, hm, hid⟩
    have hd := hrow _ (List.fst_mem_of_mem_zipIdx hm)
    obtain ⟨hpair, rfl⟩ := (Edge.ordinalId_eq_iff hd he (by omega) hk).mp hid
    have hplace : (m.1.pair, m.2) ∈ (row.map Edge.pair).zipIdx := by
      rw [zipIdx_pairs]
      exact List.mem_map_of_mem hm
    rw [← hpair]
    exact rank_lt_mates hplace
  · intro hle
    have hbelow : k - 1 < mates (row.map Edge.pair) e.pair := by omega
    obtain ⟨place, hplace, hkey, hrank⟩ := exists_rank hbelow
    rw [zipIdx_pairs] at hplace
    obtain ⟨m, hm, rfl⟩ := List.mem_map.mp hplace
    have hd := hrow _ (List.fst_mem_of_mem_zipIdx hm)
    have hsame : m.1.pair = e.pair := hkey
    refine ⟨m, hm, (Edge.ordinalId_eq_iff hd he (by omega) hk).mpr ⟨hsame, ?_⟩⟩
    rw [hsame, hrank]
    omega

/-- Where the numbers up to a count are taken, the first free one comes right after it. -/
theorem FirstFree.eq_succ {n count : Nat} (h : g.FirstFree e n) (hcount : 1 ≤ count)
    (taken : ∀ k, 1 ≤ k → (g.Taken (.text (e.ordinalId k)) ↔ k ≤ count)) : n = count + 1 := by
  have htwo := h.two_le
  have hfree : count < n := by
    rw [← not_le, ← taken n (by omega), Edge.ordinalId_of_two_le htwo]
    exact h.free
  by_contra hne
  have hleast := h.least (count + 1) (by omega) (by omega)
  rw [← Edge.ordinalId_of_two_le (by omega), taken (count + 1) (by omega)] at hleast
  omega

theorem addEdge_numbered (hg : g.edges = numbered row) (hrow : ∀ d ∈ row, d.Unnamed) (he : e.Unnamed)
    (hs : g.Has e.source) (ht : g.Has e.target) :
    ∃ e', g.addEdge e = .ok ({ g with edges := numbered (row ++ [e]) }, e') := by
  let count := mates (row.map Edge.pair) e.pair
  have hnext (k : Nat) (hk : 1 ≤ k) : g.Taken (.text (e.ordinalId k)) ↔ k ≤ count := taken_iff hg hrow he hk
  have hkey : e.id.key? ≠ none := by
    rw [he.id]
    exact Option.some_ne_none _
  cases hadd : g.addEdge e with
  | error f => exact absurd ⟨hs, ht⟩ ((addEdge_fails_iff hkey).mp ⟨f, hadd⟩)
  | ok added =>
    obtain ⟨g', e'⟩ := added
    obtain ⟨-, -, hgains⟩ := gains_of_addEdge hadd
    have hid : e'.id = .text (e.ordinalId (count + 1)) := by
      by_cases hfirst : count = 0
      · have hfree : ¬ g.Taken e.id := by
          rw [he.id, hnext 1 (Nat.le_refl 1)]
          omega
        rw [hgains.kept hfree, he.id, hfirst]
      · have htaken : g.Taken e.id := by
          rw [he.id, hnext 1 (Nat.le_refl 1)]
          omega
        obtain ⟨n, -, hfree, hid⟩ := hgains.numbered htaken
        have hn := hfree.eq_succ (by omega) hnext
        rw [hid, ← Edge.ordinalId_of_two_le hfree.two_le, hn]
    have he' : e' = { e with id := .text (e.ordinalId (count + 1)) } := by
      rw [hgains.fields, hid]
    refine ⟨e', ?_⟩
    rw [hgains.graph, hg, numbered_concat, he']

/-- The graph after a row of edges has been added, each of which has to succeed. -/
def addEdges (g : Graph) (row : List Edge) : Except Fault Graph :=
  row.foldlM (fun g e => do return (← g.addEdge e).1) g

theorem addEdges_concat {g' g'' : Graph} {e' : Edge} (h : g.addEdges row = .ok g')
    (hadd : g'.addEdge e = .ok (g'', e')) : g.addEdges (row ++ [e]) = .ok g'' := by
  rw [addEdges] at h ⊢
  rw [List.foldlM_append, h]
  change (g'.addEdge e >>= fun added => pure added.1) >>= pure = .ok g''
  rw [hadd]
  rfl

theorem addEdges_numbered (bare : g.edges = [])
    (hrow : ∀ e ∈ row, e.Unnamed ∧ g.Has e.source ∧ g.Has e.target) :
    g.addEdges row = .ok { g with edges := numbered row } := by
  induction row using List.reverseRecOn with
  | nil =>
    rw [← show g.edges = numbered [] from bare]
    rfl
  | append_singleton row e ih =>
    rw [List.forall_mem_append, List.forall_mem_singleton] at hrow
    obtain ⟨hbefore, he, hs, ht⟩ := hrow
    have hunnamed : ∀ d ∈ row, d.Unnamed := fun d hd => (hbefore d hd).1
    -- Additions leave the nodes alone, so the ends of the next edge are still there.
    obtain ⟨e', hadd⟩ := addEdge_numbered (g := { g with edges := numbered row }) rfl hunnamed he hs ht
    exact addEdges_concat (ih hbefore) hadd

/-- Edges that come without ids of their own are named after their ends, from the second one of an ordered pair
on with the number that the edge has among those of the pair, whatever edges of other pairs come in between. -/
theorem parallel_edges_are_numbered (g : Graph) (row : List Edge) (bare : g.edges = [])
    (hrow : ∀ e ∈ row, e.Unnamed ∧ g.Has e.source ∧ g.Has e.target) :
    ∃ g', g.addEdges row = .ok g' ∧ g'.slots = g.slots ∧ g'.edges.length = row.length ∧
      ∀ place e source target, row[place]? = some e → e.source = .text source → e.target = .text target →
        let k := rank (row.map Edge.pair) (some (.text source), some (.text target)) place + 1
        (k = 1 → g'.edges[place]? = some { e with id := .text (source ++ "-" ++ target) }) ∧
          (2 ≤ k → g'.edges[place]? =
            some { e with id := .text (source ++ "-" ++ target ++ "#" ++ toString k) }) := by
  refine ⟨_, addEdges_numbered bare hrow, rfl, ?_, ?_⟩
  · simp [numbered]
  · intro place e source target hplace hs ht k
    have hpair : e.pair = (some (.text source), some (.text target)) := by
      rw [Edge.pair, hs, ht]
      rfl
    have hid := getElem?_numbered hplace
    rw [hpair, Edge.ordinalId_text hs ht] at hid
    constructor
    · intro hk
      rw [hid, if_pos (by omega)]
    · intro hk
      rw [hid, if_neg (by omega)]

/-- An edge that is given nothing but its ends. -/
def barely (source target : String) : Edge :=
  .made (.text source) (.text target) .null (.whole 1) .line .null .null

def twoNodes : Graph :=
  { slots := [⟨.text "A", .ofId (.text "A")⟩, ⟨.text "B", .ofId (.text "B")⟩] }

/-- Three edges from one node to another, and one back in between. -/
def backAndForth : List Edge := [barely "A" "B", barely "B" "A", barely "A" "B", barely "A" "B"]

theorem backAndForth_fits :
    ∀ e ∈ backAndForth, e.Unnamed ∧ twoNodes.Has e.source ∧ twoNodes.Has e.target := by
  have ha : (Json.text "A").Unmarked ∧ twoNodes.Has (.text "A") :=
    ⟨⟨"A", rfl, by decide⟩, .text "A", rfl, by decide⟩
  have hb : (Json.text "B").Unmarked ∧ twoNodes.Has (.text "B") :=
    ⟨⟨"B", rfl, by decide⟩, .text "B", rfl, by decide⟩
  have hforth : (barely "A" "B").Unnamed := ⟨⟨.null, rfl, rfl⟩, ha.1, hb.1⟩
  have hback : (barely "B" "A").Unnamed := ⟨⟨.null, rfl, rfl⟩, hb.1, ha.1⟩
  simp only [backAndForth, List.forall_mem_cons]
  exact ⟨⟨hforth, ha.2, hb.2⟩, ⟨hback, hb.2, ha.2⟩, ⟨hforth, ha.2, hb.2⟩, ⟨hforth, ha.2, hb.2⟩, nofun⟩

theorem third_edge_is_numbered :
    twoNodes.edges = [] ∧
      (∀ e ∈ backAndForth, e.Unnamed ∧ twoNodes.Has e.source ∧ twoNodes.Has e.target) ∧
      ∃ g', twoNodes.addEdges backAndForth = .ok g' ∧
        g'.edges[1]? = some { barely "B" "A" with id := .text "B-A" } ∧
        g'.edges[3]? = some { barely "A" "B" with id := .text "A-B#3" } := by
  obtain ⟨g', hadd, -, -, hids⟩ := parallel_edges_are_numbered twoNodes backAndForth rfl backAndForth_fits
  have hback := (hids 1 _ "B" "A" rfl rfl rfl).1 (by decide)
  have hthird := (hids 3 _ "A" "B" rfl rfl rfl).2 (by decide)
  exact ⟨rfl, backAndForth_fits, g', hadd, hback, hthird⟩

end Graph
end NodeLink
