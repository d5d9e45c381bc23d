import NodeLink.Drawing.Box
import NodeLink.Proofs.Geometry.Exact
import NodeLink.Proofs.Outcome

/-!
# Extents over the reals

Taking something in never fails and loses nothing that was taken in before. The box around an extent holds
what the extent covers, at the distance of the padding from its sides.
-/

namespace NodeLink

def Disc.stretch (d : Disc ℝ) : Stretch ℝ :=
  ⟨d.centre.x - d.radius, d.centre.y - d.radius, d.centre.x + d.radius, d.centre.y + d.radius⟩

namespace Extent

/-- The bounds of an extent are there and leave a stretch between them. -/
structure Covers (e : Extent ℝ) (s : Stretch ℝ) : Prop where
  minX : ∃ b, e.minX = some b ∧ b ≤ s.minX
  minY : ∃ b, e.minY = some b ∧ b ≤ s.minY
  maxX : ∃ b, e.maxX = some b ∧ s.maxX ≤ b
  maxY : ∃ b, e.maxY = some b ∧ s.maxY ≤ b

theorem lower_exact (bound : Option ℝ) (x : ℝ) : lower bound x = .ok (some (bound.elim x (min · x))) := by
  cases bound with
  | none => rfl
  | some b =>
    change some <$> Scalar.least b x = _
    rw [Scalar.least_exact]
    rfl

theorem upper_exact (bound : Option ℝ) (x : ℝ) : upper bound x = .ok (some (bound.elim x (max · x))) := by
  cases bound with
  | none => rfl
  | some b =>
    change some <$> Scalar.greatest b x = _
    rw [Scalar.greatest_exact]
    rfl

/-- Something is taken in: that succeeds, keeps what the extent covers and covers some more stretches. -/
def TakesIn (e : Extent ℝ) (result : Except Fault (Extent ℝ)) (more : Set (Stretch ℝ)) : Prop :=
  ∃ e', result = .ok e' ∧ (∀ s, e.Covers s → e'.Covers s) ∧ ∀ s ∈ more, e'.Covers s

theorem TakesIn.nothing (e : Extent ℝ) : e.TakesIn (.ok e) ∅ := ⟨e, rfl, fun _ h => h, nofun⟩

theorem TakesIn.mono {e : Extent ℝ} {result : Except Fault (Extent ℝ)} {more less : Set (Stretch ℝ)}
    (h : e.TakesIn result more) (hsub : less ⊆ more) : e.TakesIn result less := by
  obtain ⟨e', hrun, hkeeps, hmore⟩ := h
  exact ⟨e', hrun, hkeeps, fun s hs => hmore s (hsub hs)⟩

theorem TakesIn.bind {e : Extent ℝ} {first : Except Fault (Extent ℝ)}
    {next : Extent ℝ → Except Fault (Extent ℝ)} {more evenMore : Set (Stretch ℝ)} (h : e.TakesIn first more)
    (hnext : ∀ e', TakesIn e' (next e') evenMore) : e.TakesIn (first >>= next) (more ∪ evenMore) := by
  obtain ⟨e₁, rfl, hkeeps₁, hmore⟩ := h
  obtain ⟨e₂, hrun₂, hkeeps₂, hevenMore⟩ := hnext e₁
  refine ⟨e₂, hrun₂, fun s hs => hkeeps₂ s (hkeeps₁ s hs), ?_⟩
  rintro s (hs | hs)
  · exact hkeeps₂ s (hmore s hs)
  · exact hevenMore s hs

theorem TakesIn.foldlM {α : Type} {step : Extent ℝ → α → Except Fault (Extent ℝ)} {more : α → Set (Stretch ℝ)}
    {items : List α} (h : ∀ a ∈ items, ∀ e, TakesIn e (step e a) (more a)) (e : Extent ℝ) :
    e.TakesIn (items.foldlM step e) (⋃ a ∈ items, more a) := by
  induction items generalizing e with
  | nil => exact (nothing e).mono (by simp)
  | cons a items ih =>
    obtain ⟨ha, hrest⟩ := List.forall_mem_cons.mp h
    rw [List.foldlM_cons]
    refine ((ha e).bind fun e' => ih hrest e').mono ?_
    simp

noncomputable def withStretch (e : Extent ℝ) (s : Stretch ℝ) : Extent ℝ where
  minX := some (e.minX.elim s.minX (min · s.minX))
  minY := some (e.minY.elim s.minY (min · s.minY))
  maxX := some (e.maxX.elim s.maxX (max · s.maxX))
  maxY := some (e.maxY.elim s.maxY (max · s.maxY))

theorem add_exact (e : Extent ℝ) (s : Stretch ℝ) : e.add s = .ok (e.withStretch s) := by
  unfold add
  rw [lower_exact, lower_exact, upper_exact, upper_exact]
  rfl

theorem elim_min_le (bound : Option ℝ) (x : ℝ) : bound.elim x (min · x) ≤ x := by
  cases bound with
  | none => exact le_rfl
  | some b => exact min_le_right b x

theorem le_elim_max (bound : Option ℝ) (x : ℝ) : x ≤ bound.elim x (max · x) := by
  cases bound with
  | none => exact le_rfl
  | some b => exact le_max_right b x

theorem add_takesIn (e : Extent ℝ) (s : Stretch ℝ) : e.TakesIn (e.add s) {s} := by
  refine ⟨e.withStretch s, add_exact e s, ?_, ?_⟩
  · rintro old ⟨⟨x₀, hx₀, hleft⟩, ⟨y₀, hy₀, htop⟩, ⟨x₁, hx₁, hright⟩, ⟨y₁, hy₁, hbottom⟩⟩
    constructor
    · exact ⟨min x₀ s.minX, by rw [withStretch, hx₀]; rfl, (min_le_left _ _).trans hleft⟩
    · exact ⟨min y₀ s.minY, by rw [withStretch, hy₀]; rfl, (min_le_left _ _).trans htop⟩
    · exact ⟨max x₁ s.maxX, by rw [withStretch, hx₁]; rfl, hright.trans (le_max_left _ _)⟩
    · exact ⟨max y₁ s.maxY, by rw [withStretch, hy₁]; rfl, hbottom.trans (le_max_left _ _)⟩
  · rintro _ rfl
    exact ⟨⟨_, rfl, elim_min_le _ _⟩, ⟨_, rfl, elim_min_le _ _⟩, ⟨_, rfl, le_elim_max _ _⟩,
      ⟨_, rfl, le_elim_max _ _⟩⟩

theorem addDisc_exact (e : Extent ℝ) (d : Disc ℝ) : e.addDisc d = .ok (e.withStretch d.stretch) :=
  add_exact e d.stretch

theorem addDisc_takesIn (e : Extent ℝ) (d : Disc ℝ) : e.TakesIn (e.addDisc d) {d.stretch} :=
  add_takesIn e d.stretch

end Extent

namespace Stretch

structure Has (s : Stretch ℝ) (p : Point ℝ) : Prop where
  x : p.x ∈ Set.Icc s.minX s.maxX
  y : p.y ∈ Set.Icc s.minY s.maxY

structure Within (s t : Stretch ℝ) : Prop where
  minX : t.minX ≤ s.minX
  minY : t.minY ≤ s.minY
  maxX : s.maxX ≤ t.maxX
  maxY : s.maxY ≤ t.maxY

theorem Has.mono {s t : Stretch ℝ} {p : Point ℝ} (h : s.Has p) (hst : s.Within t) : t.Has p :=
  ⟨⟨hst.minX.trans h.x.1, h.x.2.trans hst.maxX⟩, ⟨hst.minY.trans h.y.1, h.y.2.trans hst.maxY⟩⟩

/-- A stretch that is larger on every side by a share of its width or height. -/
noncomputable def widened (s : Stretch ℝ) (share : ℝ) : Stretch ℝ :=
  ⟨s.minX - share * (s.maxX - s.minX), s.minY - share * (s.maxY - s.minY),
    s.maxX + share * (s.maxX - s.minX), s.maxY + share * (s.maxY - s.minY)⟩

end Stretch

theorem Disc.has_stretch {d : Disc ℝ} {p : Point ℝ} (h : p.distance d.centre ≤ d.radius) :
    d.stretch.Has p := by
  obtain ⟨hx, hy⟩ := Point.abs_sub_le_distance p d.centre
  obtain ⟨hx₀, hx₁⟩ := abs_le.mp (hx.trans h)
  obtain ⟨hy₀, hy₁⟩ := abs_le.mp (hy.trans h)
  exact ⟨⟨by simp only [stretch]; linarith, by simp only [stretch]; linarith⟩,
    ⟨by simp only [stretch]; linarith, by simp only [stretch]; linarith⟩⟩

namespace Box

/-- The part of a box that its padding leaves, as a stretch. -/
def inner (b : Box ℝ) (padding : ℝ) : Stretch ℝ :=
  ⟨b.x + padding, b.y + padding, b.x + b.width - padding, b.y + b.height - padding⟩

def Holds (b : Box ℝ) (p : Point ℝ) : Prop := (b.inner 0).Has p

theorem holds_of_inner {b : Box ℝ} {padding : ℝ} (h : 0 ≤ padding) {p : Point ℝ}
    (hp : (b.inner padding).Has p) : b.Holds p :=
  hp.mono (by constructor <;> simp only [inner] <;> linarith)

end Box

namespace Extent

theorem foldlM_addDisc (discs : List (Disc ℝ)) (e : Extent ℝ) :
    discs.foldlM addDisc e = .ok (discs.foldl (fun e d => e.withStretch d.stretch) e) := by
  induction discs generalizing e with
  | nil => rfl
  | cons d discs ih =>
    rw [List.foldlM_cons, addDisc_exact]
    exact ih (e.withStretch d.stretch)

/-- The box around an extent that is not empty. -/
noncomputable def padded (padding : ℝ) (e : Extent ℝ) : Box ℝ :=
  let left := e.minX.getD 0
  let top := e.minY.getD 0
  let twice := (2 : ℕ) * padding
  ⟨left - padding, top - padding, e.maxX.getD (-0) - left + twice, e.maxY.getD (-0) - top + twice⟩

theorem box_exact (padding : ℝ) {e : Extent ℝ} (h : e.isEmpty = false) :
    e.box padding = .ok (e.padded padding) := by
  unfold box
  rw [h]
  rfl

theorem padded_bottom (padding : ℝ) (e : Extent ℝ) :
    (e.padded padding).y + (e.padded padding).height = e.maxY.getD (-0) + padding := by
  simp only [padded]
  push_cast
  ring

theorem box_covers (padding : ℝ) (e : Extent ℝ) :
    ∃ b, e.box padding = .ok b ∧ ∀ s, e.Covers s → s.Within (b.inner padding) := by
  cases hempty : e.isEmpty with
  | true =>
    refine ⟨⟨0.0, 0.0, 100.0, 100.0⟩, by unfold box; rw [hempty]; rfl, fun s hs => ?_⟩
    obtain ⟨b, hb, -⟩ := hs.minX
    rw [isEmpty, hb] at hempty
    cases hempty
  | false =>
    refine ⟨e.padded padding, box_exact padding hempty, ?_⟩
    rintro s ⟨⟨x₀, hx₀, hleft⟩, ⟨y₀, hy₀, htop⟩, ⟨x₁, hx₁, hright⟩, ⟨y₁, hy₁, hbottom⟩⟩
    have twice : ((2 : ℕ) : ℝ) * padding = 2 * padding := by push_cast; rfl
    constructor <;> simp only [Box.inner, padded, twice, hx₀, hy₀, hx₁, hy₁, Option.getD_some] <;> linarith

end Extent
end NodeLink
