import NodeLink.Proofs.Graph.Writing
import NodeLink.Proofs.Layout.Fallback
import NodeLink.Proofs.Number.Doubles

/-!
# The simulation comes to its end

Where positions are numbers whose doubles are among the doubles, and draws lie between 0 and 1, no step of the
simulation fails: a distance of zero is told apart before anything is divided by it, the square of a distance
that counts at least 1 is not zero, and a full turn by a draw is an angle.
-/

namespace NodeLink

namespace Force

structure Law.IsDouble (law : Law Value) : Prop where
  repulsion : law.repulsion.IsDouble
  attraction : law.attraction.IsDouble
  damping : law.damping.IsDouble

/-- A stream of doubles from 0 to 1. -/
def UnitDraws (draw : Nat → Value) : Prop := ∀ i, ∃ x : Float, draw i = .real x ∧ 0 ≤ x ∧ x < 1

/-- A pull of doubles, with a distance that is not below 1. -/
structure Pull.Sound (p : Pull Value) : Prop where
  along : p.along.IsDouble
  distance : ∃ x : Float, p.distance = .real x ∧ ¬x < 1

theorem isInf_turn {x : Float} (h₀ : 0 ≤ x) (h₁ : x < 1) :
    (x * Binary64.ofInt 2 * Number.piFloat).isInf = false := by
  have htwo : Binary64.Below (-51) (Binary64.ofInt 2) := Or.inr ⟨_, _, _, _, rfl, le_rfl⟩
  have hpi : Binary64.Below (-51) Number.piFloat := Or.inr ⟨_, _, _, _, rfl, le_rfl⟩
  have htwice := (Binary64.below_of_lt_one h₀ h₁).mul htwo (by decide) (by decide)
  exact (htwice.mul hpi (by decide) (by decide)).isInf

theorem next_gives {draw : Nat → Value} (hd : UnitDraws draw) :
    (next draw).Gives fun v => ∃ x : Float, v = .real x ∧ 0 ≤ x ∧ x < 1 :=
  fun draws => ⟨draw draws, draws + 1, rfl, hd draws⟩

theorem randomPull_gives {draw : Nat → Value} (hd : UnitDraws draw) : (randomPull draw).Gives Pull.Sound := by
  refine (next_gives hd).bind fun v hv => ?_
  obtain ⟨x, rfl, h₀, h₁⟩ := hv
  have hangle := isInf_turn h₀ h₁
  have hturn : Scalar.settle (Value.real x * 2 * Scalar.pi) =
      .ok (.real (x * Binary64.ofInt 2 * Number.piFloat)) := by
    change Value.settle (Value.real x * .whole 2 * .real Number.piFloat) = _
    rw [Value.real_mul_two]
    rfl
  have halong : Point.IsDouble ⟨Scalar.cos (.real (x * Binary64.ofInt 2 * Number.piFloat)),
      Scalar.sin (.real (x * Binary64.ofInt 2 * Number.piFloat))⟩ :=
    ⟨Value.isDouble_periodic hangle _, Value.isDouble_periodic hangle _⟩
  refine .lift_bind hturn (.lift_bind halong.settle ?_)
  exact .pure ⟨halong, 1.0, rfl, by decide⟩

theorem greatest_one (x : Float) :
    ∃ y : Float, Scalar.greatest (.real x) (1.0 : Value) = .ok (.real y) ∧ ¬y < 1 := by
  change ∃ y : Float, (Except.ok (if decide (x < 1.0) = true then Value.real 1.0 else .real x) :
    Except Fault Value) = .ok (.real y) ∧ ¬y < 1
  have hone : (1.0 : Float) = 1 := rfl
  rw [hone]
  by_cases h : x < 1
  · exact ⟨1, by rw [if_pos (decide_eq_true h)], by decide⟩
  · exact ⟨x, by rw [if_neg (by simpa using h)], h⟩

theorem pullAlong_eq (way : Point Value) (hx : way.x.Fits) (hy : way.y.Fits) {d : Float}
    (hd : (d == 0) = false) :
    ∃ p, pullAlong way (.real d) = .ok p ∧ p.Sound := by
  have halong : Point.IsDouble ⟨way.x / .real d, way.y / .real d⟩ := ⟨hx.div hd, hy.div hd⟩
  obtain ⟨distance, hdistance, hfar⟩ := greatest_one d
  refine ⟨⟨_, .real distance⟩, ?_, ⟨halong, distance, rfl, hfar⟩⟩
  unfold pullAlong
  rw [halong.settle, hdistance]
  rfl

theorem pull_gives {draw : Nat → Value} (hd : UnitDraws draw) {a b : Point Value} (ha : a.FitsTwice)
    (hb : b.FitsTwice) : (pull draw a b).Gives Pull.Sound := by
  have hx := hb.x.sub ha.x
  have hy := hb.y.sub ha.y
  have hway : Point.settle ⟨b.x - a.x, b.y - a.y⟩ = .ok ⟨b.x - a.x, b.y - a.y⟩ :=
    Point.settle_of_fits hx hy
  obtain ⟨d, hdistance⟩ := hx.hypot hy
  refine .lift_bind hway (.lift_bind (b := .real d) ?_
    (.lift_bind (b := Number.compareWhole? 0 d == some .eq) rfl ?_))
  · dsimp only
    rw [hdistance]
    rfl
  · split
    · exact randomPull_gives hd
    · -- The distance is told apart from the whole number zero, and so is no zero to divide by.
      rename_i hapart
      have hd : (d == 0) = false := by
        by_contra hzero
        rw [Bool.not_eq_false] at hzero
        exact hapart (by rw [Binary64.compareWhole?_zero hzero]; rfl)
      obtain ⟨p, hp, hsound⟩ := pullAlong_eq ⟨b.x - a.x, b.y - a.y⟩ hx hy hd
      exact .lift hp hsound

/-- Every force is doubles. -/
def Forces (forces : Array (Point Value)) : Prop := ∀ force ∈ forces, force.IsDouble

theorem change_eq {forces : Array (Point Value)} (hf : Forces forces) (place : Nat)
    {f : Point Value → Except Fault (Point Value)} (h : ∀ p, p.IsDouble → ∃ q, f p = .ok q ∧ q.IsDouble) :
    ∃ forces', change forces place f = .ok forces' ∧ Forces forces' := by
  unfold change
  cases hplace : forces[place]? with
  | none => exact ⟨forces, rfl, hf⟩
  | some force =>
    obtain ⟨q, hq, hdouble⟩ := h force (hf force (Array.mem_of_getElem? hplace))
    refine ⟨forces.setIfInBounds place q, by dsimp only; rw [hq]; rfl, fun p hp => ?_⟩
    obtain hp | rfl := Array.mem_or_eq_of_mem_setIfInBounds hp
    · exact hf p hp
    · exact hdouble

theorem plus_eq {p v : Point Value} (hp : p.IsDouble) (hv : v.IsDouble) :
    ∃ q, plus p v = .ok q ∧ q.IsDouble :=
  have hq : Point.IsDouble ⟨p.x + v.x, p.y + v.y⟩ := ⟨hp.x.add hv.x, hp.y.add hv.y⟩
  ⟨_, hq.settle, hq⟩

theorem minus_eq {p v : Point Value} (hp : p.IsDouble) (hv : v.IsDouble) :
    ∃ q, minus p v = .ok q ∧ q.IsDouble :=
  have hq : Point.IsDouble ⟨p.x - v.x, p.y - v.y⟩ := ⟨hp.x.sub hv.x, hp.y.sub hv.y⟩
  ⟨_, hq.settle, hq⟩

/-- Points whose coordinates are numbers with doubles that are doubles. -/
def Spread (points : Array (Point Value)) : Prop := ∀ p ∈ points, p.FitsTwice

theorem fitsTwice_getD {points : Array (Point Value)} (h : Spread points) (place : Nat) :
    (points.getD place origin).FitsTwice := by
  rw [Array.getD_eq_getD_getElem?]
  cases hp : points[place]? with
  | none => exact ⟨Or.inl ⟨_, rfl⟩, Or.inl ⟨_, rfl⟩⟩
  | some p => exact h p (Array.mem_of_getElem? hp)

variable {law : Law Value} {draw : Nat → Value} {points : Array (Point Value)}

theorem repel_gives (hl : law.IsDouble) (hd : UnitDraws draw) (hp : Spread points) (pair : Nat × Nat)
    (forces : Array (Point Value)) (hf : Forces forces) :
    (repel law draw points forces pair).Gives Forces := by
  refine (pull_gives hd (fitsTwice_getD hp pair.1) (fitsTwice_getD hp pair.2)).bind fun p hsound => ?_
  obtain ⟨halong, x, hx, hfar⟩ := hsound
  obtain ⟨r, hr⟩ := hl.repulsion
  have hpush : (law.repulsion / (p.distance * p.distance)).IsDouble := by
    rw [hr, hx]
    exact Value.Fits.div (Or.inl (Value.isDouble_real r)) (Binary64.square_ne_zero hfar)
  have hforce := halong.scaled hpush
  obtain ⟨mid, hmid, hmid'⟩ := change_eq hf pair.1 fun force h => minus_eq h hforce
  obtain ⟨last, hlast, hlast'⟩ := change_eq hmid' pair.2 fun force h => plus_eq h hforce
  exact .lift_bind hpush.settle (.lift_bind hmid (.lift hlast hlast'))

theorem attract_gives (hl : law.IsDouble) (hd : UnitDraws draw) (hp : Spread points) (edge : Nat × Nat)
    (forces : Array (Point Value)) (hf : Forces forces) :
    (attract law draw points forces edge).Gives Forces := by
  refine (pull_gives hd (fitsTwice_getD hp edge.1) (fitsTwice_getD hp edge.2)).bind fun p hsound => ?_
  obtain ⟨halong, x, hx, hfar⟩ := hsound
  have hstrength : (p.distance * law.attraction).IsDouble := by
    rw [hx]
    exact (Value.isDouble_real x).mul hl.attraction
  have hforce := halong.scaled hstrength
  obtain ⟨mid, hmid, hmid'⟩ := change_eq hf edge.1 fun force h => plus_eq h hforce
  obtain ⟨last, hlast, hlast'⟩ := change_eq hmid' edge.2 fun force h => minus_eq h hforce
  exact .lift_bind hstrength.settle (.lift_bind hmid (.lift hlast hlast'))

theorem netForces_gives (hl : law.IsDouble) (hd : UnitDraws draw) (hp : Spread points)
    (edges : List (Nat × Nat)) : (netForces law draw edges points).Gives Forces := by
  have hstart : Forces (Array.replicate points.size origin) := fun force hforce => by
    rw [(Array.mem_replicate.mp hforce).2]
    exact ⟨⟨_, rfl⟩, ⟨_, rfl⟩⟩
  exact (Drawing.Gives.foldlM (fun pair _ => repel_gives hl hd hp pair) hstart).bind fun pushed hpushed =>
    .foldlM (fun edge _ => attract_gives hl hd hp edge) hpushed

theorem moveAll_succeeds {damping : Value} (hd : damping.IsDouble) {moves : List (Point Value × Point Value)}
    (h : ∀ move ∈ moves, move.1.FitsTwice ∧ move.2.IsDouble) :
    (moveAll damping moves).2 = none ∧ ∀ p ∈ (moveAll damping moves).1, p.IsDouble := by
  fun_induction moveAll damping moves with
  | case1 => simp
  | case2 p force rest fault hx =>
    obtain ⟨hp, hforce⟩ := h _ List.mem_cons_self
    cases hx.symm.trans (hp.x.add (hforce.x.mul hd)).settle
  | case3 p force rest x hx fault hy =>
    obtain ⟨hp, hforce⟩ := h _ List.mem_cons_self
    cases hy.symm.trans (hp.y.add (hforce.y.mul hd)).settle
  | case4 p force rest x hx y hy moved fault hrest ih =>
    obtain ⟨⟨hp, hforce⟩, h⟩ := List.forall_mem_cons.mp h
    have hdx := hp.x.add (hforce.x.mul hd)
    have hdy := hp.y.add (hforce.y.mul hd)
    obtain rfl := Except.ok.inj (hx.symm.trans hdx.settle)
    obtain rfl := Except.ok.inj (hy.symm.trans hdy.settle)
    rw [hrest] at ih
    obtain ⟨hnone, hall⟩ := ih h
    exact ⟨hnone, List.forall_mem_cons.mpr ⟨⟨hdx, hdy⟩, hall⟩⟩

theorem step_succeeds (hl : law.IsDouble) (hd : UnitDraws draw) (edges : List (Nat × Nat))
    {s : State Value} (hp : Spread s.points) :
    (step law draw edges s).2 = none ∧ ∀ p ∈ (step law draw edges s).1.points, p.IsDouble := by
  obtain ⟨forces, draws, hforces, hf⟩ := netForces_gives hl hd hp edges s.draws
  unfold step
  rw [hforces]
  dsimp only
  have hmoves : ∀ move ∈ s.points.toList.zip forces.toList, move.1.FitsTwice ∧ move.2.IsDouble := by
    intro move hmove
    obtain ⟨hpoint, hforce⟩ := List.of_mem_zip hmove
    exact ⟨hp _ (Array.mem_toList_iff.mp hpoint), hf _ (Array.mem_toList_iff.mp hforce)⟩
  obtain ⟨hnone, hall⟩ := moveAll_succeeds hl.damping hmoves
  exact ⟨hnone, fun p hmem => hall p (by simpa using hmem)⟩

/-- From numbers whose doubles are among the doubles the simulation comes to its end, and to doubles if there is any
step or they are doubles to begin with. -/
theorem steps_succeed (hl : law.IsDouble) (hd : UnitDraws draw) (edges : List (Nat × Nat)) (count : Nat)
    {s : State Value} (hp : Spread s.points) :
    (steps law draw edges count s).2 = none ∧
      ((∀ p ∈ s.points, p.IsDouble) → ∀ p ∈ (steps law draw edges count s).1.points, p.IsDouble) := by
  induction count generalizing s with
  | zero => exact ⟨rfl, id⟩
  | succ count ih =>
    obtain ⟨hnone, hdouble⟩ := step_succeeds hl hd edges hp
    have hstep : step law draw edges s = ((step law draw edges s).1, none) := Prod.ext rfl hnone
    rw [steps, hstep]
    obtain ⟨hend, hpoints⟩ := ih fun p hmem => (hdouble p hmem).fitsTwice
    exact ⟨hend, fun _ => hpoints hdouble⟩

end Force

theorem Strategy.isDouble_defaultLaw : Strategy.defaultLaw.IsDouble := ⟨⟨_, rfl⟩, ⟨_, rfl⟩, ⟨_, rfl⟩⟩

namespace Layout

theorem fitsTwice_centre {n : Node} (h : n.Writable) (hp : n.hasPosition = true) : (centre n).FitsTwice := by
  obtain ⟨hx, hy⟩ := isNull_of_hasPosition hp
  exact ⟨fitsTwice_of_set h.x hx, fitsTwice_of_set h.y hy⟩

/-- Where every coordinate can be renewed, renewing them one by one comes to its end, and gives what they give. -/
theorem renew_gives {coordinate : Json → Force.Drawing Json} {P Q : Json → Prop}
    (hgives : ∀ value, P value → (coordinate value).Gives Q) (draws : Nat) {nodes : List Node}
    (h : ∀ n ∈ nodes, P n.x ∧ P n.y) :
    (renew coordinate draws nodes).2.2 = none ∧ ∀ n ∈ (renew coordinate draws nodes).1, Q n.x ∧ Q n.y := by
  induction nodes generalizing draws with
  | nil => exact ⟨rfl, nofun⟩
  | cons n rest ih =>
    obtain ⟨⟨hx, hy⟩, hrest⟩ := List.forall_mem_cons.mp h
    obtain ⟨x, drawsX, hrunX, hgivenX⟩ := hgives n.x hx draws
    obtain ⟨y, drawsY, hrunY, hgivenY⟩ := hgives n.y hy drawsX
    obtain ⟨hnone, hmore⟩ := ih drawsY hrest
    simp only [renew, hrunX, hrunY]
    exact ⟨hnone, List.forall_mem_cons.mpr ⟨⟨hgivenX, hgivenY⟩, hmore⟩⟩

theorem spring?_succeeds (slots : List Slot) {e : Edge} (h : e.Writable) :
    ∃ ends, spring? slots e = .ok ends := by
  have key {id : Json} (hid : ∃ s, id = .text s) : ∃ key, Graph.keyOf id = .ok key := by
    obtain ⟨s, rfl⟩ := hid
    exact ⟨_, rfl⟩
  refine bind_succeeds (key h.source) fun source _ => ?_
  cases indexOf? slots source with
  | none => exact ⟨none, rfl⟩
  | some first =>
    refine bind_succeeds (key h.target) fun target _ => ?_
    cases indexOf? slots target with
    | none => exact ⟨none, rfl⟩
    | some second => exact ⟨_, rfl⟩

theorem plan_succeeds {g : Graph} (h : g.Writable) (iterations : Int) :
    ∃ edges, plan g (.whole iterations) = .ok (edges, iterations) := by
  obtain ⟨edges, hedges⟩ : ∃ edges, springs g = .ok edges :=
    bind_succeeds (mapM_succeeds fun e he => spring?_succeeds g.slots (h.edges e he)) fun _ _ => ⟨_, rfl⟩
  refine ⟨edges, ?_⟩
  unfold plan
  rw [hedges]
  rfl

theorem simulateSeeded_succeeds {w : World} (hd : Force.UnitDraws w.draw) (iterations : Int)
    {law : Force.Law Value} (hl : law.IsDouble) {s : State} (hg : s.graph.Writable) (hp : s.graph.Placed) :
    (simulateSeeded w (.whole iterations) law s).fault = none := by
  obtain ⟨edges, hplan⟩ := plan_succeeds hg iterations
  unfold simulateSeeded
  rw [hplan]
  dsimp only
  split
  · rfl
  · refine (Force.steps_succeed hl hd edges _ fun p hmem => ?_).1
    obtain ⟨n, hn, rfl⟩ := List.mem_map.mp (List.mem_toArray.mp hmem)
    exact fitsTwice_centre (hg.nodes n hn) (hp n hn)

end Layout
end NodeLink
