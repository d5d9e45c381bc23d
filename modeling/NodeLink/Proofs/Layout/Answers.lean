import NodeLink.Proofs.Graph.Building
import NodeLink.Proofs.Graph.Writing
import NodeLink.Proofs.Json.Values
import NodeLink.Proofs.Layout.Totality

/-!
# Which answers of Graphviz a layout gets over

A run of Graphviz ends well where it gives positions or says that there is no layout, for which the simulation
of forces then stands in. Whether it does hangs on the answer alone: an answer that is JSON text without being
a record of objects with readable positions stops the layout with another fault.
-/

namespace NodeLink

namespace Graphviz

open NodeLink.Text

/-- A run that the delegated layout gets over. -/
def Absorbed (run : Except Fault (List Spot)) : Prop :=
  (∃ spots, run = .ok spots) ∨ ∃ reason, run = .error (.noLayout reason)

/-- Two numbers with a comma between them, and anything behind another comma. -/
def IsPosition (text : String) : Prop :=
  ∃ x y rest, splitAtEach (· == ',') text.toList = x :: y :: rest ∧
    (Number.readFloat? x).isSome = true ∧ (Number.readFloat? y).isSome = true

/-- A record whose name can be looked up and whose position, if it is that of a node of the graph, can be read. -/
def LegibleObject (g : Graph) (object : Json) : Prop :=
  ∃ fields key, object = .record fields ∧ ((Json.field? "name" fields).getD .null).key? = some key ∧
    ((g.find? key).isSome = true → ((Json.field? "pos" fields).getD .null).isGiven = true →
      ∃ text, (Json.field? "pos" fields).getD .null = .text text ∧ IsPosition text)

/-- A record whose objects, if it has any, are legible. -/
def LegibleAnswer (g : Graph) (answer : Json) : Prop :=
  ∃ fields objects, answer = .record fields ∧
    ((Json.field? "objects" fields).getD (.list [])).items? = .ok objects ∧
    ∀ object ∈ objects, LegibleObject g object

/-- What Graphviz may do for a layout to get over it: whatever it writes, unless it is JSON text that is nested
too deep or is no legible answer. -/
def Outcome.Legible (g : Graph) : Outcome → Prop
  | .missing => True
  | .failed _ _ => True
  | .output bytes => ∀ cs, Utf8.decode bytes = .ok cs →
      (∀ fault, Json.readAll cs = .error fault → fault.flaw ≠ .depth) ∧
      ∀ answer, Json.readAll cs = .ok answer → LegibleAnswer g answer

/-! ### Reading an answer -/

theorem readNumber_succeeds_iff {text : List Char} :
    (∃ x, readNumber text = .ok x) ↔ (Number.readFloat? text).isSome = true := by
  unfold readNumber
  cases Number.readFloat? text <;> simp

theorem readPosition_succeeds_iff {pos : String} : (∃ p, readPosition pos = .ok p) ↔ IsPosition pos := by
  unfold readPosition IsPosition
  cases splitAtEach (· == ',') pos.toList with
  | nil => simp
  | cons x parts =>
    cases parts with
    | nil => simp
    | cons y rest =>
      dsimp only
      constructor
      · rintro ⟨p, hp⟩
        obtain ⟨a, ha, hp⟩ := bind_eq_ok hp
        obtain ⟨b, hb, -⟩ := bind_eq_ok hp
        exact ⟨x, y, rest, rfl, readNumber_succeeds_iff.mp ⟨a, ha⟩, readNumber_succeeds_iff.mp ⟨b, hb⟩⟩
      · rintro ⟨x', y', rest', heq, hx, hy⟩
        cases heq
        exact bind_succeeds (readNumber_succeeds_iff.mpr hx) fun _ _ =>
          bind_succeeds (readNumber_succeeds_iff.mpr hy) fun _ _ => ⟨_, rfl⟩

theorem fieldOr_succeeds_iff {value other : Json} {name : String} :
    (∃ found, value.fieldOr name other = .ok found) ↔ ∃ fields, value = .record fields := by
  cases value <;> simp [Json.fieldOr]

theorem hasNode_of_key {g : Graph} {id : Json} {key : Key} (h : id.key? = some key) :
    g.hasNode id = .ok (g.find? key).isSome := by
  rw [Graph.hasNode, Graph.keyOf_eq_ok.mpr h]
  rfl

/-- The position of a record counts if its name is that of a node. -/
theorem readObject_record {g : Graph} {fields : List (String × Json)} {key : Key}
    (h : ((Json.field? "name" fields).getD .null).key? = some key) :
    readObject g (.record fields) =
      if ((g.find? key).isSome && ((Json.field? "pos" fields).getD .null).isGiven) = true then do
        let (x, y) ← readPosition (← ((Json.field? "pos" fields).getD .null).text? "split")
        return some ⟨(Json.field? "name" fields).getD .null, x, y⟩
      else .ok none := by
  unfold readObject Json.fieldOr
  simp only [bind, Except.bind, hasNode_of_key h]
  rfl

theorem text?_succeeds_iff {value : Json} {name : String} :
    (∃ text, value.text? name = .ok text) ↔ ∃ text, value = .text text := by
  cases value <;> simp [Json.text?]

theorem readObject_succeeds_iff {g : Graph} {object : Json} :
    (∃ spot, readObject g object = .ok spot) ↔ LegibleObject g object := by
  constructor
  · rintro ⟨spot, h⟩
    obtain ⟨name, hname, hrest⟩ := bind_eq_ok h
    obtain ⟨pos, -, hrest⟩ := bind_eq_ok hrest
    obtain ⟨known, hknown, -⟩ := bind_eq_ok hrest
    obtain ⟨fields, rfl⟩ := fieldOr_succeeds_iff.mp ⟨_, hname⟩
    cases hname
    obtain ⟨key, hkey, -⟩ := bind_eq_ok hknown
    have hfound := Graph.keyOf_eq_ok.mp hkey
    refine ⟨fields, key, rfl, hfound, fun hk hg => ?_⟩
    rw [readObject_record hfound, if_pos (Bool.and_eq_true_iff.mpr ⟨hk, hg⟩)] at h
    obtain ⟨text, htext, h⟩ := bind_eq_ok h
    obtain ⟨p, hp, -⟩ := bind_eq_ok h
    obtain ⟨s, hs⟩ := text?_succeeds_iff.mp ⟨text, htext⟩
    rw [hs] at htext
    cases htext
    exact ⟨_, hs, readPosition_succeeds_iff.mp ⟨p, hp⟩⟩
  · rintro ⟨fields, key, rfl, hkey, hread⟩
    rw [readObject_record hkey]
    split
    · rename_i hboth
      obtain ⟨hk, hg⟩ := Bool.and_eq_true_iff.mp hboth
      obtain ⟨text, htext, hp⟩ := hread hk hg
      rw [htext]
      refine bind_succeeds ⟨text, rfl⟩ fun found hfound => ?_
      cases hfound
      exact bind_succeeds (readPosition_succeeds_iff.mpr hp) fun _ _ => ⟨_, rfl⟩
    · exact ⟨none, rfl⟩

theorem readObjects_succeeds_iff {g : Graph} {fields : List (String × Json)} {objects : List Json}
    (h : ((Json.field? "objects" fields).getD (.list [])).items? = .ok objects) :
    (∃ spots, readPositions g (.record fields) = .ok spots) ↔ ∀ object ∈ objects, LegibleObject g object := by
  unfold readPositions
  change (∃ spots, (((Json.field? "objects" fields).getD (.list [])).items? >>= _) = .ok spots) ↔ _
  rw [h]
  refine foldlM_succeeds_iff fun spots object => ?_
  rw [← readObject_succeeds_iff]
  cases readObject g object with
  | error fault => constructor <;> (rintro ⟨_, h⟩; cases h)
  | ok spot => cases spot <;> exact ⟨fun _ => ⟨_, rfl⟩, fun _ => ⟨_, rfl⟩⟩

theorem readPositions_succeeds_iff {g : Graph} {answer : Json} :
    (∃ spots, readPositions g answer = .ok spots) ↔ LegibleAnswer g answer := by
  constructor
  · rintro ⟨spots, h⟩
    obtain ⟨listed, hlisted, hrest⟩ := bind_eq_ok h
    obtain ⟨objects, hobjects, -⟩ := bind_eq_ok hrest
    obtain ⟨fields, rfl⟩ := fieldOr_succeeds_iff.mp ⟨_, hlisted⟩
    cases hlisted
    exact ⟨fields, objects, rfl, hobjects, (readObjects_succeeds_iff hobjects).mp ⟨spots, h⟩⟩
  · rintro ⟨fields, objects, rfl, hobjects, hall⟩
    exact (readObjects_succeeds_iff hobjects).mpr hall

/-! ### What reading an answer does not end in -/

/-- The computation never says that there is no layout. -/
def NeverDeclines {α : Type} (run : Except Fault α) : Prop := ∀ reason, run ≠ .error (.noLayout reason)

section

variable {α β σ : Type}

theorem neverDeclines_ok (a : α) : NeverDeclines (.ok a) := fun _ h => nomatch h

theorem neverDeclines_bind {x : Except Fault α} {f : α → Except Fault β} (hx : NeverDeclines x)
    (hf : ∀ a, NeverDeclines (f a)) : NeverDeclines (x >>= f) := by
  cases x with
  | error fault =>
    intro reason h
    cases h
    exact hx reason rfl
  | ok a => exact hf a

theorem neverDeclines_foldlM {step : σ → α → Except Fault σ} (hstep : ∀ s a, NeverDeclines (step s a))
    (items : List α) (s : σ) : NeverDeclines (items.foldlM step s) := by
  induction items generalizing s with
  | nil => exact neverDeclines_ok s
  | cons a items ih =>
    rw [List.foldlM_cons]
    exact neverDeclines_bind (hstep s a) ih

end

theorem neverDeclines_fieldOr (value other : Json) (name : String) : NeverDeclines (value.fieldOr name other) := by
  intro reason h
  cases value <;> cases h

theorem neverDeclines_readNumber (text : List Char) : NeverDeclines (readNumber text) := by
  intro reason h
  unfold readNumber at h
  split at h <;> cases h

theorem neverDeclines_readPosition (pos : String) : NeverDeclines (readPosition pos) := by
  unfold readPosition
  split
  · exact neverDeclines_bind (neverDeclines_readNumber _) fun _ =>
      neverDeclines_bind (neverDeclines_readNumber _) fun _ => neverDeclines_ok _
  · exact fun _ h => nomatch h

theorem neverDeclines_hasNode (g : Graph) (id : Json) : NeverDeclines (g.hasNode id) := by
  refine neverDeclines_bind (fun reason h => ?_) fun _ => neverDeclines_ok _
  unfold Graph.keyOf at h
  split at h <;> cases h

theorem neverDeclines_readObject (g : Graph) (object : Json) : NeverDeclines (readObject g object) := by
  refine neverDeclines_bind (neverDeclines_fieldOr _ _ _) fun name =>
    neverDeclines_bind (neverDeclines_fieldOr _ _ _) fun pos =>
      neverDeclines_bind (neverDeclines_hasNode g name) fun known => ?_
  split
  · refine neverDeclines_bind (fun reason h => ?_) fun text =>
      neverDeclines_bind (neverDeclines_readPosition text) fun _ => neverDeclines_ok _
    cases pos <;> cases h
  · exact neverDeclines_ok none

theorem neverDeclines_readPositions (g : Graph) (answer : Json) : NeverDeclines (readPositions g answer) := by
  refine neverDeclines_bind (neverDeclines_fieldOr _ _ _) fun listed =>
    neverDeclines_bind (fun reason h => ?_) fun objects =>
      neverDeclines_foldlM (fun spots object => ?_) objects []
  · cases listed <;> cases h
  · refine neverDeclines_bind (neverDeclines_readObject g object) fun spot => ?_
    cases spot <;> exact neverDeclines_ok _

/-! ### Runs -/

/-- An answer that can be read decides; of one that is no JSON text only too deep a nesting is not absorbed. -/
theorem absorbed_readOutput_iff {g : Graph} {bytes : List Nat} :
    Absorbed (readOutput g bytes) ↔ (Outcome.output bytes).Legible g := by
  unfold readOutput
  simp only [Outcome.Legible]
  cases hcs : Utf8.decode bytes with
  | error fault => exact ⟨fun _ => nofun, fun _ => Or.inr ⟨_, rfl⟩⟩
  | ok cs =>
    cases hanswer : Json.readAll cs with
    | error fault =>
      dsimp only
      rw [hanswer]
      dsimp only
      by_cases hdepth : fault.flaw = .depth
      · rw [if_pos hdepth]
        constructor
        · rintro (⟨spots, h⟩ | ⟨reason, h⟩) <;> cases h
        · exact fun h => absurd hdepth ((h cs rfl).1 fault hanswer)
      · rw [if_neg hdepth]
        refine ⟨fun _ cs' hcs' => ?_, fun _ => Or.inr ⟨_, rfl⟩⟩
        obtain rfl : cs = cs' := Except.ok.inj hcs'
        rw [hanswer]
        refine ⟨fun fault' h => ?_, nofun⟩
        cases h
        exact hdepth
    | ok answer =>
      dsimp only
      rw [hanswer]
      dsimp only
      constructor
      · intro h cs' hcs'
        obtain rfl : cs = cs' := Except.ok.inj hcs'
        rw [hanswer]
        refine ⟨nofun, fun answer' h' => ?_⟩
        cases h'
        obtain h | ⟨reason, h⟩ := h
        · exact readPositions_succeeds_iff.mp h
        · exact absurd h (neverDeclines_readPositions g answer reason)
      · exact fun h => Or.inl (readPositions_succeeds_iff.mpr ((h cs rfl).2 answer hanswer))

theorem absorbed_run_iff {g : Graph} (hg : g.Writable) (iterations : Json) (outcome : Outcome) :
    Absorbed (run g (inferSettings g iterations) outcome).1 ↔ outcome.Legible g := by
  obtain ⟨request, hrequest⟩ := prepare_succeeds hg iterations
  unfold run
  rw [hrequest]
  cases outcome with
  | missing => exact ⟨fun _ => trivial, fun _ => Or.inr ⟨_, rfl⟩⟩
  | failed status stderr => exact ⟨fun _ => trivial, fun _ => Or.inr ⟨_, rfl⟩⟩
  | output bytes => exact absorbed_readOutput_iff

/-! ### Moving nodes does not change what is legible -/

theorem isSome_find?_of_onlyMoved {g g' : Graph} (h : g.OnlyMoved g') (key : Key) :
    (g'.find? key).isSome = (g.find? key).isSome := by
  unfold Graph.find? Graph.slotOf?
  rw [Option.isSome_map, Option.isSome_map]
  generalize g.slots = slots, g'.slots = slots', h.slots = hslots
  induction hslots with
  | nil => rfl
  | cons hslot _ ih => rw [List.find?_cons, List.find?_cons, hslot.1]; split <;> [rfl; exact ih]

theorem legible_of_onlyMoved {g g' : Graph} (h : g.OnlyMoved g') (outcome : Outcome) :
    outcome.Legible g' ↔ outcome.Legible g := by
  have object (value : Json) : LegibleObject g' value ↔ LegibleObject g value := by
    unfold LegibleObject
    simp only [isSome_find?_of_onlyMoved h]
  cases outcome with
  | missing => exact Iff.rfl
  | failed status stderr => exact Iff.rfl
  | output bytes => simp only [Outcome.Legible, LegibleAnswer, object]

end Graphviz

namespace Layout

open Graphviz (Absorbed absorbed_run_iff legible_of_onlyMoved)

/-! ### Seeding with draws that are doubles -/

theorem isDouble_seedOf {w : World} {i : Nat} {value : Json} (h : seedOf w i = .ok value) : value.IsDouble := by
  obtain ⟨v, hv, rfl⟩ := map_eq_ok h
  obtain ⟨x, hx⟩ | ⟨cause, hx⟩ := Value.measured_sub_real (w.draw i * .whole 2 * .real 100.0) 100.0
  · rw [hx] at hv
    cases hv
    exact ⟨x, rfl⟩
  · rw [hx] at hv
    cases hv

theorem fitsTwice_of_seeded {w : World} {first last : Nat} {old new : Json} (h : Seeded w first last old new)
    (hold : old = .null ∨ old.FitsTwice) : new.FitsTwice := by
  unfold Seeded at h
  split at h
  · obtain ⟨i, -, -, hi⟩ := h
    exact Or.inl (isDouble_seedOf hi)
  · rename_i hset
    rw [h]
    exact fitsTwice_of_set hold (Bool.not_eq_true _ ▸ hset)

theorem seedOf_succeeds {w : World} (h : Force.UnitDraws w.draw) (i : Nat) :
    Succeeds (seedOf w i) Json.IsDouble := by
  obtain ⟨x, hx, -⟩ := h i
  refine ⟨.real (x * Binary64.ofInt 2 * 100.0 - 100.0), ?_, ⟨_, rfl⟩⟩
  unfold seedOf
  rw [hx, Value.real_mul_two]
  rfl

theorem seeded_gives {w : World} {P : Json → Prop} (h : Force.UnitDraws w.draw)
    (hseed : ∀ value, value.IsDouble → P value) {value : Json} (hset : value.isNull = false → P value) :
    (seeded w value).Gives P := by
  intro draws
  rw [run_seeded]
  cases hnull : value.isNull with
  | true =>
    obtain ⟨seed, hseed', hdouble⟩ := seedOf_succeeds h draws
    exact ⟨seed, draws + 1, by rw [hseed']; rfl, hseed seed hdouble⟩
  | false => exact ⟨value, draws, rfl, hset hnull⟩

theorem renew_seeded_succeeds {w : World} (h : Force.UnitDraws w.draw) (draws : Nat) (nodes : List Node) :
    (renew (seeded w) draws nodes).2.2 = none :=
  (renew_gives (P := fun _ => True) (Q := fun _ => True)
    (fun _ _ => seeded_gives h (fun _ _ => trivial) fun _ => trivial) draws fun _ _ => ⟨trivial, trivial⟩).1

theorem renewAll_seeded_succeeds {w : World} (h : Force.UnitDraws w.draw) (s : State) :
    (renewAll (seeded w) s).fault = none :=
  renew_seeded_succeeds h s.draws s.graph.nodes

theorem writable_of_seeded {w : World} {first last : Nat} {n n' : Node} (h : n.Writable) (hm : n.Moved n')
    (hx : Seeded w first last n.x n'.x) (hy : Seeded w first last n.y n'.y) : n'.Writable := by
  have hx' := fitsTwice_of_seeded hx h.x
  have hy' := fitsTwice_of_seeded hy h.y
  rw [hm]
  exact ⟨h.id, h.label, h.color, h.size, Or.inr hx', Or.inr hy'⟩

theorem writable_seededGraph {w : World} {s : State} (hg : s.graph.Writable)
    (hf : (renewAll (seeded w) s).fault = none) : (seededGraph w s).Writable := by
  obtain ⟨hlays, hseeded⟩ := renewAll_seeded w s
  have hmoved := hlays.moved
  have hall := forall₂_and hmoved.nodes (hseeded hf)
  refine ⟨?_, ?_, ?_⟩
  · change ∃ t, (renewAll (seeded w) s).state.graph.title = .text t
    rw [hmoved.title]
    exact hg.title
  · refine forall_of_forall₂ (fun h => ?_) ((List.forall₂_and_left _ _).mpr ⟨hg.nodes, hall⟩)
    exact writable_of_seeded h.1 h.2.1 h.2.2.1 h.2.2.2
  · change ∀ e ∈ (renewAll (seeded w) s).state.graph.edges, e.Writable
    rw [hmoved.edges]
    exact hg.edges

/-! ### Layouts by Graphviz -/

theorem fault_moveToAll_ok (nodes : List Node) (spots : List Graphviz.Spot) :
    (moveToAll nodes (spots.map .ok)).2 = none := by
  induction spots generalizing nodes with
  | nil => rfl
  | cons spot rest ih => exact ih (moveTo nodes spot)

/-- What a run of Graphviz comes to on the graph with its positions seeded. -/
def ranOn (w : World) (iterations : Json) (s : State) : Except Fault (List Graphviz.Spot) :=
  (Graphviz.run (seededGraph w s) (Graphviz.inferSettings (seededGraph w s) iterations) w.graphviz).1

theorem runnerSpots_graphviz (w : World) (iterations : Json) (s : State) :
    runnerSpots w iterations .graphviz s = (ranOn w iterations s).map (List.map .ok) := rfl

/-- Once positions are seeded, the layout by Graphviz ends as its run does: at the positions, in the
simulation, or with the fault of the run. -/
theorem delegate_graphviz_cases {w : World} {iterations : Json} {s : State} (he : ¬s.graph.slots.isEmpty)
    (hf : (renewAll (seeded w) s).fault = none) :
    (∃ spots, ranOn w iterations s = .ok spots ∧ (delegate w iterations .graphviz s).fault = none) ∨
    (∃ reason, ranOn w iterations s = .error (.noLayout reason) ∧ delegate w iterations .graphviz s =
      simulateSeeded w iterations Strategy.defaultLaw (fallen w iterations .graphviz reason s)) ∨
    (¬Absorbed (ranOn w iterations s) ∧ (delegate w iterations .graphviz s).fault ≠ none) := by
  have hspots := runnerSpots_graphviz w iterations s
  have hdelegate : delegate w iterations .graphviz s = _ :=
    (delegate_eq w iterations .graphviz s).trans (if_neg he)
  obtain ⟨fault, hfault, -⟩ | ⟨-, hgo⟩ := afterSeeding_cases w s _
  · rw [hfault] at hf
    cases hf
  rw [hgo] at hdelegate
  cases hran : ranOn w iterations s with
  | ok spots =>
    rw [hran] at hspots
    refine Or.inl ⟨spots, rfl, ?_⟩
    unfold runnerSpots seededGraph at hspots
    dsimp only at hdelegate
    rw [hspots] at hdelegate
    rw [hdelegate]
    exact fault_moveToAll_ok _ spots
  | error fault =>
    rw [hran] at hspots
    by_cases hdeclined : ∃ reason, fault = .noLayout reason
    · obtain ⟨reason, rfl⟩ := hdeclined
      exact Or.inr (Or.inl ⟨reason, rfl, delegate_of_noLayout he hf hspots⟩)
    · refine Or.inr (Or.inr ⟨?_, ?_⟩)
      · rintro (⟨spots, h⟩ | ⟨reason, h⟩) <;> cases h
        exact hdeclined ⟨reason, rfl⟩
      · unfold runnerSpots seededGraph at hspots
        dsimp only at hdelegate
        rw [hspots] at hdelegate
        rw [hdelegate]
        cases fault with
        | noLayout reason => exact absurd ⟨reason, rfl⟩ hdeclined
        | _ => exact Option.some_ne_none _

/-- For every graph with nodes that can be written, and every stream of draws: a run of Graphviz gives positions
or no layout exactly where its outcome is legible. If it is, the layout comes to its end and places every node;
if it is not, the layout ends in a fault. -/
theorem legible_outcomes_are_absorbed (w : World) (iterations : Int) (s : State) (hg : s.graph.Writable)
    (hne : ¬s.graph.slots.isEmpty) (hdraws : Force.UnitDraws w.draw) :
    (∀ outcome, Absorbed (Graphviz.run s.graph (Graphviz.inferSettings s.graph (.whole iterations)) outcome).1 ↔
      outcome.Legible s.graph) ∧
    (w.graphviz.Legible s.graph → (apply w (.delegated (.whole iterations) .graphviz) s).fault = none ∧
      (apply w (.delegated (.whole iterations) .graphviz) s).state.graph.Placed) ∧
    (¬w.graphviz.Legible s.graph → (apply w (.delegated (.whole iterations) .graphviz) s).fault ≠ none) := by
  have hf := renewAll_seeded_succeeds hdraws s
  have hseeded := writable_seededGraph hg hf
  obtain ⟨hlaysSeeded, -⟩ := renewAll_seeded w s
  have habsorbed : Absorbed (ranOn w (.whole iterations) s) ↔ w.graphviz.Legible s.graph :=
    (absorbed_run_iff hseeded _ w.graphviz).trans (legible_of_onlyMoved hlaysSeeded.moved w.graphviz)
  have hpoints : Runner.GivesPoints .graphviz := trivial
  have hlays : Lays s.graph (delegate w (.whole iterations) .graphviz s) :=
    lays_delegate w (.whole iterations) hpoints s
  refine ⟨absorbed_run_iff hg _, fun hlegible => ?_, fun hillegible => ?_⟩
  · have hnone : (delegate w (.whole iterations) .graphviz s).fault = none := by
      obtain ⟨spots, -, hnone⟩ | ⟨reason, -, hends⟩ | ⟨hnot, -⟩ := delegate_graphviz_cases hne hf
      · exact hnone
      · rw [hends]
        exact simulateSeeded_succeeds hdraws iterations Strategy.isDouble_defaultLaw hseeded
          (hlaysSeeded.placed hf)
      · exact absurd (habsorbed.mpr hlegible) hnot
    exact ⟨hnone, hlays.placed hnone⟩
  · obtain ⟨spots, hran, -⟩ | ⟨reason, hran, -⟩ | ⟨-, hfault⟩ := delegate_graphviz_cases hne hf
    · exact absurd (habsorbed.mp (Or.inl ⟨spots, hran⟩)) hillegible
    · exact absurd (habsorbed.mp (Or.inr ⟨reason, hran⟩)) hillegible
    · exact hfault

theorem unitDraws_half : Force.UnitDraws fun _ => .real 0.5 :=
  fun _ => ⟨0.5, rfl, by decide, by decide⟩

def lone : State := { graph := { slots := [⟨.text "A", .ofId (.text "A")⟩] } }

theorem writable_lone : lone.graph.Writable := by
  refine ⟨⟨_, rfl⟩, fun n hn => ?_, nofun⟩
  obtain rfl := List.mem_singleton.mp hn
  exact ⟨⟨_, rfl⟩, Or.inr ⟨_, rfl⟩, Or.inr ⟨_, rfl⟩, Or.inr ⟨10, rfl, Value.wholeFits_of_lt (by decide)⟩, Or.inl rfl,
    Or.inl rfl⟩

theorem decodeFrom_plain {cs : List Char} (h : ∀ c ∈ cs, c.toNat < 128) {fuel : ℕ} (hf : cs.length < fuel)
    (position : ℕ) : Text.Utf8.decodeFrom fuel position (cs.map Char.toNat) = .ok cs := by
  induction cs generalizing fuel position with
  | nil =>
    cases fuel with
    | zero => rfl
    | succ fuel => rfl
  | cons c cs ih =>
    obtain ⟨hc, hrest⟩ := List.forall_mem_cons.mp h
    cases fuel with
    | zero => cases hf
    | succ fuel =>
      have hchar : Text.Utf8.takeChar c.toNat (cs.map Char.toNat) = .ok (c, cs.map Char.toNat) := by
        rw [Text.Utf8.takeChar, if_pos hc, Char.ofNat_toNat]
      rw [List.map_cons, Text.Utf8.decodeFrom, hchar]
      simp only [ih hrest (Nat.lt_of_succ_lt_succ hf)]
      rfl

theorem blank_oneLine : Json.Layout.oneLine.Blank := trivial

/-- What Graphviz tells of the node when it places it, and its text. -/
def placement : Json :=
  .record [("objects", .list [.record [("name", .text "A"), ("pos", .text "1,2")]])]

def placingAnswer : List Char := Json.write .oneLine placement

theorem faithful_placement : Json.Faithful Json.depthLimit placement := by
  refine .record (by decide) (List.forall_mem_singleton.mpr (.list (List.forall_mem_singleton.mpr ?_)))
  exact .record (by decide) (List.forall_mem_cons.mpr ⟨.text "A", List.forall_mem_singleton.mpr (.text "1,2")⟩)

theorem lone_is_placed :
    let w : World := { draw := fun _ => .real 0.5, graphviz := .output (placingAnswer.map Char.toNat) }
    lone.graph.Writable ∧ ¬lone.graph.slots.isEmpty ∧ Force.UnitDraws w.draw ∧ w.graphviz.Legible lone.graph ∧
      (apply w (.delegated (.whole 50) .graphviz) lone).fault = none ∧
      (apply w (.delegated (.whole 50) .graphviz) lone).state.graph.Placed := by
  intro w
  have hne : ¬lone.graph.slots.isEmpty := by decide
  have hdraws : Force.UnitDraws w.draw := unitDraws_half
  have hplain : placingAnswer.all (fun c => c.toNat < 128) = true := by decide +kernel
  have hdecoded : Text.Utf8.decode (placingAnswer.map Char.toNat) = .ok placingAnswer :=
    decodeFrom_plain (fun c hc => of_decide_eq_true (List.all_eq_true.mp hplain c hc)) (by simp) 0
  have hread : Json.readAll placingAnswer = .ok placement :=
    Json.readAll_write blank_oneLine faithful_placement
  have hlegible : w.graphviz.Legible lone.graph := by
    intro cs hcs
    obtain rfl : placingAnswer = cs := Except.ok.inj (hdecoded.symm.trans hcs)
    rw [hread]
    refine ⟨nofun, fun answer hanswer => ?_⟩
    cases hanswer
    refine ⟨_, _, rfl, rfl, fun object hobject => ?_⟩
    obtain rfl := List.mem_singleton.mp hobject
    exact ⟨_, _, rfl, rfl, fun _ _ => ⟨_, rfl, ['1'], ['2'], [], rfl, by decide +kernel, by decide +kernel⟩⟩
  obtain ⟨-, habsorbed, -⟩ := legible_outcomes_are_absorbed w 50 lone writable_lone hne hdraws
  exact ⟨writable_lone, hne, hdraws, hlegible, habsorbed hlegible⟩

/-- An answer that is an empty list is JSON text, but no record: the layout of a single node by Graphviz ends in
a fault. -/
theorem empty_list_is_not_absorbed :
    ¬∀ (w : World) (s : State), s.graph.Writable → ¬s.graph.slots.isEmpty → Force.UnitDraws w.draw →
      Absorbed (Graphviz.run s.graph (Graphviz.inferSettings s.graph Strategy.defaultIterations) w.graphviz).1 ∧
        (apply w (.delegated Strategy.defaultIterations .graphviz) s).fault = none ∧
        (apply w (.delegated Strategy.defaultIterations .graphviz) s).state.graph.Placed := by
  intro h
  let w : World := { draw := fun _ => .real 0.5, graphviz := .output [91, 93] }
  obtain ⟨habsorbed, -⟩ := h w lone writable_lone (by decide) unitDraws_half
  have hlegible := (absorbed_run_iff writable_lone Strategy.defaultIterations w.graphviz).mp habsorbed
  have hread : Json.readAll ['[', ']'] = .ok (.list []) :=
    Json.readAll_write blank_oneLine (.list (fun _ => nofun) : Json.Faithful _ (.list []))
  obtain ⟨fields, objects, hrecord, -⟩ := (hlegible ['[', ']'] rfl).2 _ hread
  cases hrecord

end Layout
end NodeLink
