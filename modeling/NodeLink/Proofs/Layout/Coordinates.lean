import NodeLink.Layout.Strategy
import NodeLink.Proofs.Outcome

/-!
# Coordinates that layouts give

Whatever a layout computes for a coordinate is a coordinate: not null. What comes of a draw, of a place on
a circle or of the answer of Graphviz is a double; a node that is moved on has whatever a sum can be.
-/

namespace NodeLink

namespace Value

/-- A double, or the fault that kept it from being one. -/
def Measured (v : Value) : Prop := (∃ x, v = .real x) ∨ ∃ cause, v = .fault cause

/-- The value is one that a coordinate can have. -/
def Sets (v : Value) : Prop := v.toJson.isNull = false

theorem measured_real (x : Float) : (real x).Measured := Or.inl ⟨x, rfl⟩

theorem measured_fault (cause : Fault) : (fault cause).Measured := Or.inr ⟨cause, rfl⟩

theorem measured_withReal {f : Float → Value} (h : ∀ x, (f x).Measured) (n : Int) :
    (withReal n f).Measured := by
  unfold withReal
  split
  · exact h _
  · exact measured_fault _

theorem measured_combine {onReal : Float → Float → Value} {others : Value → Value → Value} {a b : Value}
    (hr : ∀ x y, (onReal x y).Measured) (ho : (others a b).Measured) :
    (combine onReal others a b).Measured := by
  unfold combine
  split
  · exact measured_fault _
  · exact measured_fault _
  · exact measured_withReal (fun x => hr x _) _
  · exact measured_withReal (hr _) _
  · exact ho

/-- Nothing that is no number can be multiplied by a double. -/
theorem measured_multiply {a b : Value} (h : (∃ x, a = .real x) ∨ ∃ y, b = .real y) :
    (multiply a b).Measured := by
  unfold multiply
  split
  · rcases h with ⟨x, hx⟩ | ⟨y, hy⟩ <;> contradiction
  · exact measured_fault _
  · exact measured_fault _
  · rcases h with ⟨x, hx⟩ | ⟨y, hy⟩ <;> contradiction
  · split
    · exact measured_fault _
    · split <;> exact measured_fault _

theorem measured_sub_real (a : Value) (y : Float) : (a - .real y).Measured := by
  change (sub a (.real y)).Measured
  unfold sub
  split
  · exact measured_real _
  · contradiction
  · exact measured_combine (fun _ _ => measured_real _) (measured_fault _)

theorem measured_mul {a b : Value} (h : (∃ x, a = .real x) ∨ ∃ y, b = .real y) : (a * b).Measured := by
  change (mul a b).Measured
  unfold mul
  split
  · exact measured_real _
  · rcases h with ⟨x, hx⟩ | ⟨y, hy⟩ <;> contradiction
  · exact measured_combine (fun _ _ => measured_real _) (measured_multiply h)

theorem Measured.mul {a : Value} (h : a.Measured) (b : Value) : (a * b).Measured := by
  obtain ⟨x, rfl⟩ | ⟨cause, rfl⟩ := h
  · exact measured_mul (Or.inl ⟨x, rfl⟩)
  · exact Or.inr ⟨cause, by cases b <;> rfl⟩

theorem measured_periodic (v : Value) (f : Float → Float) : (v.measured (periodic f)).Measured := by
  have one (x : Float) : (periodic f x).Measured := by
    unfold periodic
    split
    · exact measured_fault _
    · exact measured_real _
  cases v with
  | whole n => exact measured_withReal one n
  | real x => exact one x
  | other value => exact measured_fault _
  | fault cause => exact measured_fault _

theorem Measured.sets {v u : Value} (hv : v.Measured) (h : settle v = .ok u) : u.Sets := by
  obtain ⟨x, rfl⟩ | ⟨cause, rfl⟩ := hv
  · cases h
    rfl
  · cases h

theorem sets_join {a b u : Value} (h : settle (join a b) = .ok u) : u.Sets := by
  unfold join at h
  split at h <;> cases h <;> rfl

theorem sets_add {a b u : Value} (h : settle (a + b) = .ok u) : u.Sets := by
  change settle (add a b) = .ok u at h
  unfold add at h
  split at h
  · cases h
    rfl
  · cases h
    rfl
  · unfold combine at h
    split at h
    · cases h
    · cases h
    · exact (measured_withReal (fun _ => measured_real _) _).sets h
    · exact (measured_withReal (fun _ => measured_real _) _).sets h
    · exact sets_join h

theorem sets_ofJson {value : Json} (h : value.isNull = false) : (ofJson value).Sets := by
  cases value with
  | null => cases h
  | number n => cases n <;> rfl
  | bool b => rfl
  | text s => rfl
  | list items => rfl
  | record fields => rfl

end Value

namespace Layout

/-- The start from -100 to 100 that a draw of the stream gives. -/
def seedOf (w : World) (i : Nat) : Except Fault Json :=
  (Value.settle (w.draw i * .whole 2 * .real 100.0 - .real 100.0)).map Value.toJson

/-- A coordinate after seeding by some of the draws from one number up to another: what it was, unless it was
not set. -/
def Seeded (w : World) (first last : Nat) (old new : Json) : Prop :=
  if old.isNull then ∃ i, first ≤ i ∧ i < last ∧ seedOf w i = .ok new else new = old

theorem run_next_bind {β : Type} (draw : Nat → Value) (f : Value → Force.Drawing β) (draws : Nat) :
    (Force.next draw >>= f).run draws = (f (draw draws)).run (draws + 1) := rfl

theorem run_lift_map {α β : Type} (x : Except Fault α) (f : α → β) (draws : Nat) :
    ((do return f (← x) : Force.Drawing β)).run draws = (x.map f, draws) := by
  cases x <;> rfl

theorem run_seeded (w : World) (value : Json) (draws : Nat) :
    (seeded w value).run draws =
      if value.isNull then (seedOf w draws, draws + 1) else (.ok value, draws) := by
  by_cases h : value.isNull
  · simp only [seeded, h, if_true, run_next_bind]
    exact run_lift_map _ _ _
  · simp only [seeded, h]
    rfl

theorem run_scattered (w : World) (value : Json) (draws : Nat) :
    (scattered w value).run draws =
      ((Value.settle ((w.draw draws - .real 0.5) * .whole 2 * .real 200.0)).map Value.toJson, draws + 1) := by
  rw [scattered, run_next_bind]
  exact run_lift_map _ _ _

theorem isNull_seedOf {w : World} {i : Nat} {value : Json} (h : seedOf w i = .ok value) :
    value.isNull = false := by
  cases hs : Value.settle (w.draw i * .whole 2 * .real 100.0 - .real 100.0) with
  | error cause =>
    rw [seedOf, hs] at h
    cases h
  | ok v =>
    rw [seedOf, hs] at h
    cases h
    exact (Value.measured_sub_real _ _).sets hs

theorem Seeded.isNull {w : World} {first last : Nat} {old new : Json} (h : Seeded w first last old new) :
    new.isNull = false := by
  unfold Seeded at h
  split at h
  · obtain ⟨i, -, -, hi⟩ := h
    exact isNull_seedOf hi
  · rename_i hn
    rw [h]
    exact Bool.eq_false_iff.mpr hn

theorem Seeded.mono {w : World} {first last first' last' : Nat} {old new : Json}
    (h : Seeded w first last old new) (hf : first' ≤ first) (hl : last ≤ last') :
    Seeded w first' last' old new := by
  unfold Seeded at h ⊢
  split at h
  · rename_i hn
    obtain ⟨i, hi, hlt, he⟩ := h
    rw [if_pos hn]
    exact ⟨i, by omega, by omega, he⟩
  · rename_i hn
    rw [if_neg hn]
    exact h

theorem isNull_scattered {w : World} {value new : Json} {draws draws' : Nat}
    (h : (scattered w value).run draws = (.ok new, draws')) : new.isNull = false := by
  rw [run_scattered] at h
  cases hs : Value.settle ((w.draw draws - .real 0.5) * .whole 2 * .real 200.0) with
  | error cause =>
    rw [hs] at h
    cases h
  | ok v =>
    rw [hs] at h
    cases h
    exact (Value.measured_mul (Or.inr ⟨_, rfl⟩)).sets hs

theorem sets_circlePlace {count i : Nat} {radius : Value} {p : Point Value}
    (h : circlePlace count i radius = .ok p) : p.x.Sets ∧ p.y.Sets := by
  obtain ⟨step, -, h⟩ := bind_eq_ok h
  obtain ⟨angle, -, h⟩ := bind_eq_ok h
  obtain ⟨x, hx, h⟩ := bind_eq_ok h
  obtain ⟨y, hy, h⟩ := bind_eq_ok h
  cases h
  exact ⟨((Value.measured_periodic angle Float.cos).mul radius).sets hx,
    ((Value.measured_periodic angle Float.sin).mul radius).sets hy⟩

end Layout

namespace Graphviz

/-- Both coordinates of a spot are set. -/
def Spot.Sets (spot : Spot) : Prop := spot.x.isNull = false ∧ spot.y.isNull = false

/-- Both coordinates of a spot are doubles. -/
def Spot.IsReal (spot : Spot) : Prop := (∃ x, spot.x = .real x) ∧ ∃ y, spot.y = .real y

theorem Spot.IsReal.sets {spot : Spot} (h : spot.IsReal) : spot.Sets := by
  obtain ⟨⟨x, hx⟩, ⟨y, hy⟩⟩ := h
  rw [Spot.Sets, hx, hy]
  exact ⟨rfl, rfl⟩

theorem real_readPosition {pos : String} {x y : Json} (h : readPosition pos = .ok (x, y)) :
    (∃ a, x = .real a) ∧ ∃ b, y = .real b := by
  unfold readPosition at h
  split at h
  · obtain ⟨a, -, h⟩ := bind_eq_ok h
    obtain ⟨b, -, h⟩ := bind_eq_ok h
    cases h
    exact ⟨⟨_, rfl⟩, ⟨_, rfl⟩⟩
  · cases h

theorem real_readObject {g : Graph} {object : Json} {spot : Spot}
    (h : readObject g object = .ok (some spot)) : spot.IsReal := by
  obtain ⟨name, -, h⟩ := bind_eq_ok h
  obtain ⟨pos, -, h⟩ := bind_eq_ok h
  obtain ⟨known, -, h⟩ := bind_eq_ok h
  split at h
  · obtain ⟨text, -, h⟩ := bind_eq_ok h
    obtain ⟨⟨x, y⟩, hp, h⟩ := bind_eq_ok h
    cases h
    exact real_readPosition hp
  · cases h

theorem real_putSpot {spot : Spot} {spots : List Spot} (hs : spot.IsReal) (h : ∀ s ∈ spots, s.IsReal) :
    ∀ s ∈ putSpot spot spots, s.IsReal := by
  induction spots with
  | nil =>
    intro s hm
    rw [putSpot, List.mem_singleton] at hm
    exact hm ▸ hs
  | cons first rest ih =>
    obtain ⟨hf, hr⟩ := List.forall_mem_cons.mp h
    rw [putSpot]
    split
    · exact List.forall_mem_cons.mpr ⟨hs, hr⟩
    · exact List.forall_mem_cons.mpr ⟨hf, ih hr⟩

theorem real_run {g : Graph} {settings : List Dot.Attribute} {outcome : Outcome} {spots : List Spot}
    (h : (run g settings outcome).1 = .ok spots) : ∀ spot ∈ spots, spot.IsReal := by
  have ofAnswer {answer : Json} {found : List Spot} (hr : readPositions g answer = .ok found) :
      ∀ spot ∈ found, spot.IsReal := by
    obtain ⟨listed, -, hr⟩ := bind_eq_ok hr
    obtain ⟨objects, -, hr⟩ := bind_eq_ok hr
    refine foldlM_keeps (P := fun found => ∀ spot ∈ found, spot.IsReal) ?_ (by simp) hr
    intro object _ spots spots' hs hstep
    obtain ⟨read, ho, hstep⟩ := bind_eq_ok hstep
    cases read with
    | none =>
      cases hstep
      exact hs
    | some spot =>
      cases hstep
      exact real_putSpot (real_readObject ho) hs
  unfold run at h
  split at h
  · cases h
  · unfold readOutcome at h
    split at h
    · cases h
    · cases h
    · unfold readOutput at h
      dsimp only at h
      split at h
      · cases h
      · split at h
        · split at h <;> cases h
        · exact ofAnswer h

end Graphviz
end NodeLink
