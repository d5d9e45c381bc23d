import Mathlib.Data.List.Forall2

/-!
# Computations that may fail

What a computation of several steps gives was given by each of its steps.
-/

namespace NodeLink

variable {ε α β σ : Type}

theorem bind_eq_ok {x : Except ε α} {f : α → Except ε β} {b : β} (h : (x >>= f) = .ok b) :
    ∃ a, x = .ok a ∧ f a = .ok b := by
  cases x with
  | error e => cases h
  | ok a => exact ⟨a, rfl, h⟩

theorem map_eq_ok {f : α → β} {x : Except ε α} {b : β} (h : f <$> x = .ok b) :
    ∃ a, x = .ok a ∧ f a = b := by
  cases x with
  | error e => cases h
  | ok a =>
    cases h
    exact ⟨a, rfl, rfl⟩

/-- What goes on alike after either of two ways goes on after the way that is gone. -/
theorem branch_eq_ok {c : Prop} [Decidable c] {x y : Except ε α} {f : α → Except ε β} {b : β}
    (h : (if c then x >>= f else y >>= f) = .ok b) : ∃ a, (if c then x else y) = .ok a ∧ f a = .ok b := by
  split at h
  · rename_i hc
    rw [if_pos hc]
    exact bind_eq_ok h
  · rename_i hc
    rw [if_neg hc]
    exact bind_eq_ok h

theorem bind_of_ok {x : Except ε α} {a : α} (h : x = .ok a) (f : α → Except ε β) : (x >>= f) = f a := by
  rw [h]
  rfl

theorem branch_of_ok {c : Prop} [Decidable c] {x y : Except ε α} {a : α} (h : (if c then x else y) = .ok a)
    (f : α → Except ε β) : (if c then x >>= f else y >>= f) = f a := by
  split at h
  · rename_i hc
    rw [if_pos hc, bind_of_ok h]
  · rename_i hc
    rw [if_neg hc, bind_of_ok h]

/-- A computation of two steps fails in the first of them, or in the second after what the first gives. -/
theorem bind_eq_error {x : Except ε α} {f : α → Except ε β} {e : ε} (h : (x >>= f) = .error e) :
    x = .error e ∨ ∃ a, x = .ok a ∧ f a = .error e := by
  cases x with
  | error e' =>
    cases h
    exact Or.inl rfl
  | ok a => exact Or.inr ⟨a, rfl, h⟩

theorem map_eq_error {f : α → β} {x : Except ε α} {e : ε} (h : f <$> x = .error e) : x = .error e := by
  cases x with
  | error e' =>
    cases h
    rfl
  | ok a => cases h

theorem mapM_eq_ok {f : α → Except ε β} {as : List α} {bs : List β} (h : as.mapM f = .ok bs) :
    List.Forall₂ (fun a b => f a = .ok b) as bs := by
  induction as generalizing bs with
  | nil =>
    cases h
    exact .nil
  | cons a as ih =>
    rw [List.mapM_cons] at h
    obtain ⟨b, hb, h⟩ := bind_eq_ok h
    obtain ⟨rest, hr, h⟩ := bind_eq_ok h
    cases h
    exact .cons hb (ih hr)

theorem mapM_of_forall₂ {f : α → Except ε β} {as : List α} {bs : List β}
    (h : List.Forall₂ (fun a b => f a = .ok b) as bs) : as.mapM f = .ok bs := by
  induction h with
  | nil => rfl
  | cons hab _ ih =>
    rw [List.mapM_cons, hab, ih]
    rfl

theorem mapM_eq_some_iff {f : α → Option β} {as : List α} {bs : List β} :
    as.mapM f = some bs ↔ List.Forall₂ (fun a b => f a = some b) as bs := by
  constructor
  · intro h
    induction as generalizing bs with
    | nil =>
      cases h
      exact .nil
    | cons a as ih =>
      rw [List.mapM_cons] at h
      obtain ⟨b, hb, h⟩ := Option.bind_eq_some_iff.mp h
      obtain ⟨rest, hr, h⟩ := Option.bind_eq_some_iff.mp h
      cases h
      exact .cons hb (ih hr)
  · intro h
    induction h with
    | nil => rfl
    | cons hab _ ih =>
      rw [List.mapM_cons, hab, ih]
      rfl

theorem forall_of_forall₂ {R : α → β → Prop} {P : β → Prop} (gives : ∀ {a b}, R a b → P b) {as : List α}
    {bs : List β} (h : List.Forall₂ R as bs) : ∀ b ∈ bs, P b := by
  induction h with
  | nil => exact fun _ hb => nomatch hb
  | cons hab _ ih => exact List.forall_mem_cons.mpr ⟨gives hab, ih⟩

theorem mapM_gives {f : α → Except ε β} {P : β → Prop} (give : ∀ {a b}, f a = .ok b → P b) {as : List α}
    {bs : List β} (h : as.mapM f = .ok bs) : ∀ b ∈ bs, P b :=
  forall_of_forall₂ (R := fun a b => f a = .ok b) give (mapM_eq_ok h)

theorem exists_of_forall₂ {R : α → β → Prop} {as : List α} {bs : List β} (h : List.Forall₂ R as bs) {b : β}
    (hb : b ∈ bs) : ∃ a ∈ as, R a b := by
  induction h with
  | nil => cases hb
  | cons hab _ ih =>
    obtain rfl | hb := List.mem_cons.mp hb
    · exact ⟨_, List.mem_cons_self, hab⟩
    · obtain ⟨a, ha, hr⟩ := ih hb
      exact ⟨a, List.mem_cons_of_mem _ ha, hr⟩

theorem bind_succeeds {x : Except ε α} {f : α → Except ε β} (hx : ∃ a, x = .ok a)
    (hf : ∀ a, x = .ok a → ∃ b, f a = .ok b) : ∃ b, (x >>= f) = .ok b := by
  obtain ⟨a, ha⟩ := hx
  obtain ⟨b, hb⟩ := hf a ha
  refine ⟨b, ?_⟩
  rw [ha]
  exact hb

theorem map_succeeds {f : α → β} {x : Except ε α} (hx : ∃ a, x = .ok a) : ∃ b, f <$> x = .ok b := by
  obtain ⟨a, rfl⟩ := hx
  exact ⟨f a, rfl⟩

theorem mapM_succeeds {f : α → Except ε β} {as : List α} (h : ∀ a ∈ as, ∃ b, f a = .ok b) :
    ∃ bs, as.mapM f = .ok bs := by
  induction as with
  | nil => exact ⟨[], rfl⟩
  | cons a as ih =>
    obtain ⟨ha, hrest⟩ := List.forall_mem_cons.mp h
    rw [List.mapM_cons]
    exact bind_succeeds ha fun _ _ => bind_succeeds (ih hrest) fun _ _ => ⟨_, rfl⟩

/-- Where it hangs on the item alone whether a step succeeds, a row of steps succeeds if all its items do. -/
theorem foldlM_succeeds_iff {P : α → Prop} {step : σ → α → Except ε σ} {items : List α} {s : σ}
    (hstep : ∀ s a, (∃ s', step s a = .ok s') ↔ P a) :
    (∃ s', items.foldlM step s = .ok s') ↔ ∀ a ∈ items, P a := by
  induction items generalizing s with
  | nil => exact ⟨fun _ => nofun, fun _ => ⟨s, rfl⟩⟩
  | cons a items ih =>
    rw [List.foldlM_cons, List.forall_mem_cons]
    constructor
    · rintro ⟨s', h⟩
      obtain ⟨mid, hmid, hrest⟩ := bind_eq_ok h
      exact ⟨(hstep s a).mp ⟨mid, hmid⟩, ih.mp ⟨s', hrest⟩⟩
    · rintro ⟨ha, hrest⟩
      exact bind_succeeds ((hstep s a).mpr ha) fun mid _ => ih.mpr hrest

theorem foldlM_takes {step : σ → α → Except ε σ} {items : List α} {s s' : σ} (h : items.foldlM step s = .ok s')
    {a : α} (ha : a ∈ items) : ∃ mid mid', step mid a = .ok mid' := by
  induction items generalizing s with
  | nil => cases ha
  | cons b items ih =>
    rw [List.foldlM_cons] at h
    obtain ⟨mid, hstep, hrest⟩ := bind_eq_ok h
    rcases List.mem_cons.mp ha with rfl | ha
    · exact ⟨s, mid, hstep⟩
    · exact ih hrest ha

theorem foldlM_keeps {P : σ → Prop} {step : σ → α → Except ε σ} {items : List α} {s s' : σ}
    (keep : ∀ a ∈ items, ∀ s s', P s → step s a = .ok s' → P s') (hs : P s)
    (h : items.foldlM step s = .ok s') : P s' := by
  induction items generalizing s with
  | nil =>
    cases h
    exact hs
  | cons a items ih =>
    rw [List.foldlM_cons] at h
    obtain ⟨mid, hstep, hrest⟩ := bind_eq_ok h
    exact ih (fun b hb => keep b (List.mem_cons_of_mem a hb)) (keep a (by simp) s mid hs hstep) hrest

/-- Items that a machine only collects. -/
theorem foldlM_collect {step : σ → α → Option σ} (state : List α → σ) {items : List α}
    (h : ∀ a ∈ items, ∀ read, step (state read) a = some (state (read ++ [a]))) (read : List α) :
    items.foldlM step (state read) = some (state (read ++ items)) := by
  induction items generalizing read with
  | nil => simp
  | cons a items ih =>
    obtain ⟨ha, hrest⟩ := List.forall_mem_cons.mp h
    rw [List.foldlM_cons, ha read, List.append_cons read a items]
    exact ih hrest _

/-- A computation that succeeds with a result as said. -/
def Succeeds (x : Except ε α) (P : α → Prop) : Prop := ∃ a, x = .ok a ∧ P a

namespace Succeeds

variable {P : α → Prop} {Q : β → Prop} {x : Except ε α}

theorem exists_ok (h : Succeeds x P) : ∃ a, x = .ok a := by
  obtain ⟨a, ha, -⟩ := h
  exact ⟨a, ha⟩

theorem of_any {p : α → Bool} (h : x.toOption.any p = true) : Succeeds x (p · = true) := by
  cases x with
  | error e => cases h
  | ok a => exact ⟨a, rfl, h⟩

theorem pure {a : α} (h : P a) : Succeeds (Pure.pure a : Except ε α) P := ⟨a, rfl, h⟩

theorem mono {R : α → Prop} (hx : Succeeds x P) (h : ∀ a, P a → R a) : Succeeds x R := by
  obtain ⟨a, ha, hP⟩ := hx
  exact ⟨a, ha, h a hP⟩

theorem bind {f : α → Except ε β} (hx : Succeeds x P) (hf : ∀ a, P a → Succeeds (f a) Q) :
    Succeeds (x >>= f) Q := by
  obtain ⟨a, rfl, hP⟩ := hx
  exact hf a hP

theorem map {f : α → β} (hx : Succeeds x P) (hf : ∀ a, P a → Q (f a)) : Succeeds (f <$> x) Q := by
  obtain ⟨a, rfl, hP⟩ := hx
  exact ⟨f a, rfl, hf a hP⟩

theorem ite {c : Prop} [Decidable c] {y : Except ε α} (hx : c → Succeeds x P) (hy : ¬c → Succeeds y P) :
    Succeeds (if c then x else y) P := by
  split
  · exact hx ‹_›
  · exact hy ‹_›

theorem branch {c : Prop} [Decidable c] {y : Except ε α} {f : α → Except ε β} (hx : c → Succeeds x P)
    (hy : ¬c → Succeeds y P) (hf : ∀ a, P a → Succeeds (f a) Q) : Succeeds (if c then x >>= f else y >>= f) Q :=
  ite (fun h => (hx h).bind hf) fun h => (hy h).bind hf

theorem mapM {f : α → Except ε β} {as : List α} (h : ∀ a ∈ as, Succeeds (f a) Q) :
    Succeeds (as.mapM f) fun bs => ∀ b ∈ bs, Q b := by
  induction as with
  | nil => exact ⟨[], rfl, by simp⟩
  | cons a as ih =>
    obtain ⟨ha, hrest⟩ := List.forall_mem_cons.mp h
    rw [List.mapM_cons]
    apply ha.bind
    intro b hb
    apply (ih hrest).bind
    intro bs hbs
    exact pure (List.forall_mem_cons.mpr ⟨hb, hbs⟩)

theorem foldlM {P : σ → Prop} {step : σ → α → Except ε σ} {items : List α} {s : σ} (hs : P s)
    (keep : ∀ a ∈ items, ∀ s, P s → Succeeds (step s a) P) : Succeeds (items.foldlM step s) P := by
  induction items generalizing s with
  | nil => exact pure hs
  | cons a items ih =>
    obtain ⟨ha, hrest⟩ := List.forall_mem_cons.mp keep
    rw [List.foldlM_cons]
    exact (ha s hs).bind fun mid hmid => ih hmid hrest

end Succeeds

/-- Two computations that fail alike, or succeed with results that are related. -/
inductive Alike (R : α → β → Prop) : Except ε α → Except ε β → Prop where
  | failed (e : ε) : Alike R (.error e) (.error e)
  | done {a : α} {b : β} (h : R a b) : Alike R (.ok a) (.ok b)

namespace Alike

variable {γ δ : Type} {R : α → β → Prop} {S : γ → δ → Prop} {x : Except ε α} {y : Except ε β}

theorem of_ok {a : α} (h : Alike R x y) (hx : x = .ok a) : ∃ b, y = .ok b ∧ R a b := by
  cases h with
  | failed e => cases hx
  | done hab =>
    cases hx
    exact ⟨_, rfl, hab⟩

theorem bind {f : α → Except ε γ} {g : β → Except ε δ} (hx : Alike R x y)
    (hf : ∀ a b, R a b → Alike S (f a) (g b)) : Alike S (x >>= f) (y >>= g) := by
  cases hx with
  | failed e => exact .failed e
  | done h => exact hf _ _ h

theorem bind_same {f : α → Except ε γ} {g : α → Except ε δ} (x : Except ε α)
    (hf : ∀ a, Alike S (f a) (g a)) : Alike S (x >>= f) (x >>= g) := by
  cases x with
  | error e => exact .failed e
  | ok a => exact hf a

theorem mapM {f : γ → Except ε α} {g : γ → Except ε β} {cs : List γ} (h : ∀ c ∈ cs, Alike R (f c) (g c)) :
    Alike (List.Forall₂ R) (cs.mapM f) (cs.mapM g) := by
  induction cs with
  | nil => exact .done .nil
  | cons c cs ih =>
    obtain ⟨hc, hrest⟩ := List.forall_mem_cons.mp h
    rw [List.mapM_cons, List.mapM_cons]
    exact hc.bind fun a b hab => (ih hrest).bind fun as bs habs => .done (.cons hab habs)

end Alike

end NodeLink
