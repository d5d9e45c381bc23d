import NodeLink.Proofs.Layout.Coordinates

/-!
# What the simulation of forces keeps

What comes of a computation that draws random numbers came of each of its steps, and it succeeds if they do. A
step of the simulation keeps as many points as there are, and moves points that are set to points that are set.
So does any number of steps, also where one of them fails.
-/

namespace NodeLink.Force

open Scalar

theorem Drawing.bind_eq_ok {β γ : Type} {x : Drawing β} {f : β → Drawing γ} {c : γ} {draws draws' : Nat}
    (h : (x >>= f).run draws = (.ok c, draws')) :
    ∃ b between, x.run draws = (.ok b, between) ∧ (f b).run between = (.ok c, draws') := by
  change ExceptT.bindCont f (x.run draws).1 (x.run draws).2 = (.ok c, draws') at h
  cases hx : x.run draws with
  | mk outcome between =>
    rw [hx] at h
    cases outcome with
    | error cause => cases h
    | ok b => exact ⟨b, between, rfl, h⟩

theorem Drawing.foldlM_keeps {β σ : Type} {P : σ → Prop} {act : σ → β → Drawing σ} {items : List β}
    {s s' : σ} {draws draws' : Nat}
    (keep : ∀ b s s' draws draws', P s → (act s b).run draws = (.ok s', draws') → P s') (hs : P s)
    (h : (items.foldlM act s).run draws = (.ok s', draws')) : P s' := by
  induction items generalizing s draws with
  | nil =>
    cases h
    exact hs
  | cons b items ih =>
    rw [List.foldlM_cons] at h
    obtain ⟨mid, between, hb, hrest⟩ := Drawing.bind_eq_ok h
    exact ih (keep b s mid draws between hs hb) hrest

theorem run_lift {β : Type} {x : Except Fault β} {b : β} {draws draws' : Nat}
    (h : ExceptT.run (liftM x : Drawing β) draws = (.ok b, draws')) : x = .ok b := by
  cases x with
  | error cause => cases h
  | ok b' =>
    cases h
    rfl

/-- A computation that succeeds from any place in the stream, with a result as said. -/
def Drawing.Gives {β : Type} (x : Drawing β) (P : β → Prop) : Prop :=
  ∀ draws, ∃ b draws', x.run draws = (.ok b, draws') ∧ P b

namespace Drawing.Gives

variable {β γ σ : Type}

theorem bind {x : Drawing β} {f : β → Drawing γ} {P : β → Prop} {Q : γ → Prop} (hx : x.Gives P)
    (hf : ∀ b, P b → (f b).Gives Q) : (x >>= f).Gives Q := by
  intro draws
  obtain ⟨b, between, hb, hP⟩ := hx draws
  obtain ⟨c, draws', hc, hQ⟩ := hf b hP between
  refine ⟨c, draws', ?_, hQ⟩
  change ExceptT.bindCont f (x.run draws).1 (x.run draws).2 = _
  rw [hb]
  exact hc

theorem mono {x : Drawing β} {P Q : β → Prop} (hx : x.Gives P) (h : ∀ b, P b → Q b) : x.Gives Q := by
  intro draws
  obtain ⟨b, draws', hrun, hb⟩ := hx draws
  exact ⟨b, draws', hrun, h b hb⟩

theorem lift_bind {x : Except Fault β} {b : β} {f : β → Drawing γ} {Q : γ → Prop} (hx : x = .ok b)
    (hf : (f b).Gives Q) : ((liftM x : Drawing β) >>= f).Gives Q := by
  rw [hx]
  exact hf

theorem lift {x : Except Fault β} {b : β} {P : β → Prop} (hx : x = .ok b) (hb : P b) :
    (liftM x : Drawing β).Gives P := by
  rw [hx]
  exact fun draws => ⟨b, draws, rfl, hb⟩

theorem pure {b : β} {P : β → Prop} (hb : P b) : (Pure.pure b : Drawing β).Gives P :=
  fun draws => ⟨b, draws, rfl, hb⟩

theorem foldlM {P : σ → Prop} {act : σ → β → Drawing σ} {items : List β} {s : σ}
    (keep : ∀ b ∈ items, ∀ s, P s → (act s b).Gives P) (hs : P s) : (items.foldlM act s).Gives P := by
  induction items generalizing s with
  | nil => exact pure hs
  | cons b items ih =>
    obtain ⟨hb, hrest⟩ := List.forall_mem_cons.mp keep
    rw [List.foldlM_cons]
    exact (hb s hs).bind fun s' hs' => ih hrest hs'

end Drawing.Gives

section

variable {α : Type} [Scalar α]

omit [Scalar α] in
theorem size_change {forces forces' : Array (Point α)} {place : Nat} {f : Point α → Except Fault (Point α)}
    (h : change forces place f = .ok forces') : forces'.size = forces.size := by
  unfold change at h
  split at h
  · cases h
    rfl
  · obtain ⟨force, -, h⟩ := NodeLink.bind_eq_ok h
    cases h
    exact Array.size_setIfInBounds

theorem size_repel {law : Law α} {draw : Nat → α} {points forces forces' : Array (Point α)}
    {pair : Nat × Nat} {draws draws' : Nat}
    (h : (repel law draw points forces pair).run draws = (.ok forces', draws')) :
    forces'.size = forces.size := by
  obtain ⟨p, _, -, h⟩ := Drawing.bind_eq_ok h
  obtain ⟨push, _, -, h⟩ := Drawing.bind_eq_ok h
  obtain ⟨first, _, hf, h⟩ := Drawing.bind_eq_ok h
  rw [size_change (run_lift h), size_change (run_lift hf)]

theorem size_attract {law : Law α} {draw : Nat → α} {points forces forces' : Array (Point α)}
    {edge : Nat × Nat} {draws draws' : Nat}
    (h : (attract law draw points forces edge).run draws = (.ok forces', draws')) :
    forces'.size = forces.size := by
  obtain ⟨p, _, -, h⟩ := Drawing.bind_eq_ok h
  obtain ⟨strength, _, -, h⟩ := Drawing.bind_eq_ok h
  obtain ⟨first, _, hf, h⟩ := Drawing.bind_eq_ok h
  rw [size_change (run_lift h), size_change (run_lift hf)]

theorem size_netForces {law : Law α} {draw : Nat → α} {edges : List (Nat × Nat)}
    {points forces : Array (Point α)} {draws draws' : Nat}
    (h : (netForces law draw edges points).run draws = (.ok forces, draws')) :
    forces.size = points.size := by
  obtain ⟨pushed, between, hp, h⟩ := Drawing.bind_eq_ok h
  have hpushed : pushed.size = points.size :=
    Drawing.foldlM_keeps (P := fun forces => forces.size = points.size)
      (fun _ _ _ _ _ hs hstep => (size_repel hstep).trans hs) Array.size_replicate hp
  exact Drawing.foldlM_keeps (P := fun forces => forces.size = points.size)
    (fun _ _ _ _ _ hs hstep => (size_attract hstep).trans hs) hpushed h

theorem length_moveAll (damping : α) (moves : List (Point α × Point α)) :
    (moveAll damping moves).1.length = moves.length := by
  fun_induction moveAll damping moves with
  | case1 => rfl
  | case2 => simp
  | case3 => simp
  | case4 p force rest x _ y _ moved fault hrest ih =>
    rw [hrest] at ih
    simp [ih]

theorem size_step (law : Law α) (draw : Nat → α) (edges : List (Nat × Nat)) (s : State α) :
    (step law draw edges s).1.points.size = s.points.size := by
  unfold step
  split
  · rfl
  · rename_i forces draws h
    simp [length_moveAll, size_netForces h]

theorem size_steps (law : Law α) (draw : Nat → α) (edges : List (Nat × Nat)) (count : Nat) (s : State α) :
    (steps law draw edges count s).1.points.size = s.points.size := by
  induction count generalizing s with
  | zero => rfl
  | succ count ih =>
    have hs := size_step law draw edges s
    rw [steps]
    split
    · rename_i h
      rw [h] at hs
      rw [ih, hs]
    · exact hs

end

/-- Both coordinates of a point are set. -/
def IsSet (p : Point Value) : Prop := p.x.Sets ∧ p.y.Sets

theorem isSet_moveAll {damping : Value} {moves : List (Point Value × Point Value)}
    (h : ∀ move ∈ moves, IsSet move.1) : ∀ p ∈ (moveAll damping moves).1, IsSet p := by
  have rest_set {move : Point Value × Point Value} {rest : List (Point Value × Point Value)}
      (h : ∀ m ∈ move :: rest, IsSet m.1) : ∀ p ∈ rest.map (·.1), IsSet p := by
    intro p hp
    obtain ⟨m, hm, rfl⟩ := List.mem_map.mp hp
    exact h m (List.mem_cons_of_mem _ hm)
  fun_induction moveAll damping moves with
  | case1 => simp
  | case2 p force rest fault hx =>
    exact List.forall_mem_cons.mpr ⟨h _ List.mem_cons_self, rest_set h⟩
  | case3 p force rest x hx fault hy =>
    have hp : IsSet p := h _ List.mem_cons_self
    exact List.forall_mem_cons.mpr ⟨⟨Value.sets_add hx, hp.2⟩, rest_set h⟩
  | case4 p force rest x hx y hy moved fault hrest ih =>
    rw [hrest] at ih
    refine List.forall_mem_cons.mpr ⟨⟨Value.sets_add hx, Value.sets_add hy⟩, ?_⟩
    exact ih fun m hm => h m (List.mem_cons_of_mem _ hm)

theorem isSet_step {law : Law Value} {draw : Nat → Value} {edges : List (Nat × Nat)} {s : State Value}
    (h : ∀ p ∈ s.points.toList, IsSet p) : ∀ p ∈ (step law draw edges s).1.points.toList, IsSet p := by
  unfold step
  split
  · exact h
  · exact isSet_moveAll fun move hm => h _ (List.of_mem_zip hm).1

theorem isSet_steps {law : Law Value} {draw : Nat → Value} {edges : List (Nat × Nat)} {count : Nat}
    {s : State Value} (h : ∀ p ∈ s.points.toList, IsSet p) :
    ∀ p ∈ (steps law draw edges count s).1.points.toList, IsSet p := by
  induction count generalizing s with
  | zero => exact h
  | succ count ih =>
    have hs : ∀ p ∈ (step law draw edges s).1.points.toList, IsSet p := isSet_step h
    rw [steps]
    split
    · rename_i hstep
      rw [hstep] at hs
      exact ih hs
    · exact hs

end NodeLink.Force
