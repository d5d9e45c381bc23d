import NodeLink.Schedule.Debouncer
import NodeLink.Proofs.Schedule.HeapOrder
import Mathlib.Algebra.Order.Group.Defs
import Mathlib.Data.List.Perm.Basic

/-!
# Timers on an exact clock

On a clock that measures time exactly no timer rings before its time, and time goes on to the next timer
and never past one. What counts of the timers of a timeline are those that are not cancelled.
-/

namespace NodeLink

/-- A clock that measures time exactly. -/
instance Clock.exact {τ : Type} [AddCommGroup τ] [LinearOrder τ] : Clock τ where
  start := 0
  after now delay := now + delay
  before a b := a < b
  isOver pause := pause ≤ 0
  hasCome time now := time ≤ now

namespace Timeline

variable {τ ε : Type}

/-- The timers that are not cancelled. -/
def live (timers : Array (Timer τ ε)) : List (Timer τ ε) := timers.toList.filter (!·.cancelled)

theorem mem_live {timers : Array (Timer τ ε)} {t : Timer τ ε} :
    t ∈ live timers ↔ t ∈ timers ∧ t.cancelled = false := by
  rw [live, List.mem_filter, Array.mem_toList_iff, Bool.not_eq_true']

theorem live_perm {timers timers' : Array (Timer τ ε)} (h : timers.Perm timers') :
    (live timers).Perm (live timers') := h.toList.filter _

theorem due_cancelled (id : Nat) (t : Timer τ ε) : (cancelled id t).due = t.due := by
  unfold cancelled
  split <;> rfl

theorem id_cancelled (id : Nat) (t : Timer τ ε) : (cancelled id t).id = t.id := by
  unfold cancelled
  split <;> rfl

theorem event_cancelled (id : Nat) (t : Timer τ ε) : (cancelled id t).event = t.event := by
  unfold cancelled
  split <;> rfl

theorem live_cancel (l : Timeline τ ε) (id : Nat) :
    live (l.cancel id).timers = (live l.timers).filter (·.id ≠ id) := by
  unfold live cancel
  rw [Array.toList_map]
  induction l.timers.toList with
  | nil => rfl
  | cons t ts ih =>
    rw [List.map_cons, List.filter_cons, List.filter_cons, ih]
    by_cases h : t.id = id
    · cases hc : t.cancelled <;> simp [cancelled, h]
    · cases hc : t.cancelled <;> simp [cancelled, h, hc]

section

variable [Clock τ]

theorem live_pop? {timers rest : Array (Timer τ ε)} {t : Timer τ ε}
    (hp : Heap.pop? isBefore timers = some (t, rest)) :
    (live timers).Perm (if t.cancelled then live rest else t :: live rest) := by
  have h := live_perm (Heap.pop?_perm isBefore hp)
  have hpush : live (rest.push t) = live rest ++ if t.cancelled then [] else [t] := by
    cases hc : t.cancelled <;> simp [live, hc]
  rw [hpush] at h
  cases hc : t.cancelled with
  | true => simpa [hc] using h.symm
  | false =>
    rw [hc] at h
    exact h.symm.trans (List.perm_append_singleton t (live rest))

theorem mem_pop? {timers rest : Array (Timer τ ε)} {t : Timer τ ε}
    (hp : Heap.pop? isBefore timers = some (t, rest)) {u : Timer τ ε} :
    u ∈ timers ↔ u ∈ rest ∨ u = t := by
  rw [← (Heap.pop?_perm isBefore hp).mem_iff, Array.mem_push]

theorem eq_empty_of_pop? {timers : Array (Timer τ ε)} (h : Heap.pop? isBefore timers = none) : timers = #[] := by
  unfold Heap.pop? at h
  split at h
  · cases h
  · exact Array.eq_empty_of_size_eq_zero (by omega)

/-- Clearing takes nothing away but cancelled timers. -/
theorem clearTop_keeps (timers : Array (Timer τ ε)) :
    (live (clearTop timers)).Perm (live timers) ∧ ∀ t ∈ clearTop timers, t ∈ timers := by
  fun_induction clearTop timers with
  | case1 => exact ⟨.refl _, fun _ ht => ht⟩
  | case2 timers t rest hp hc ih =>
    have hlive := live_pop? hp
    rw [if_pos hc] at hlive
    exact ⟨ih.1.trans hlive.symm, fun u hu => (mem_pop? hp).mpr (Or.inl (ih.2 u hu))⟩
  | case3 => exact ⟨.refl _, fun _ ht => ht⟩

theorem clear_keeps (timers : Array (Timer τ ε)) :
    (live (clear timers)).Perm (live timers) ∧ ∀ t ∈ clear timers, t ∈ timers := by
  unfold clear
  split
  · constructor
    · refine (live_perm (Heap.ofArray_perm _ _)).trans ?_
      simp [live]
    · intro t ht
      exact (Array.mem_filter.mp ((Heap.ofArray_perm _ _).mem_iff.mp ht)).1
  · exact clearTop_keeps timers

theorem takeDue_perm (now : τ) (timers : Array (Timer τ ε)) :
    ((takeDue now timers).1 ++ (takeDue now timers).2.toList).Perm timers.toList := by
  fun_induction takeDue now timers with
  | case1 => exact .refl _
  | case2 timers t rest hp _ more rest' heq ih =>
    rw [heq] at ih
    have hpop := (Heap.pop?_perm isBefore hp).toList
    rw [Array.toList_push] at hpop
    exact ((ih.cons t).trans (List.perm_append_singleton t rest.toList).symm).trans hpop
  | case3 => exact .refl _

theorem mem_takeDue {now : τ} {timers : Array (Timer τ ε)} {t : Timer τ ε} (h : t ∈ (takeDue now timers).2) :
    t ∈ timers :=
  Array.mem_toList_iff.mp ((takeDue_perm now timers).mem_iff.mp
    (List.mem_append_right _ (Array.mem_toList_iff.mpr h)))

end

variable [AddCommGroup τ] [LinearOrder τ]

/-- A timeline whose heap is in order and whose timers are not overdue and have been numbered. -/
structure InTime (l : Timeline τ ε) : Prop where
  inOrder : Heap.InOrder isBefore 0 l.timers
  notPast : ∀ t ∈ l.timers, l.now ≤ t.due
  known : ∀ t ∈ l.timers, t.id < l.nextId

theorem orders_isBefore : Heap.Orders (isBefore : Timer τ ε → Timer τ ε → Bool) where
  asymm h := decide_eq_false (lt_asymm (of_decide_eq_true h))
  trans h h' := decide_eq_false (not_lt.mpr
    (le_trans (not_lt.mp (of_decide_eq_false h')) (not_lt.mp (of_decide_eq_false h))))

theorem due_le_of_pop? {timers rest : Array (Timer τ ε)} {t : Timer τ ε}
    (ho : Heap.InOrder isBefore 0 timers) (hp : Heap.pop? isBefore timers = some (t, rest)) :
    ∀ u ∈ timers, t.due ≤ u.due :=
  fun u hu => not_lt.mp (of_decide_eq_false (Heap.least_pop? orders_isBefore ho hp u hu))

/-- A timeline without some of its cancelled timers. -/
structure Cleared (timers timers' : Array (Timer τ ε)) : Prop where
  inOrder : Heap.InOrder isBefore 0 timers'
  live : (live timers').Perm (Timeline.live timers)
  mem : ∀ t ∈ timers', t ∈ timers
  top : ∀ t rest, Heap.pop? isBefore timers' = some (t, rest) → t.cancelled = false

theorem cleared_clearTop {timers : Array (Timer τ ε)} (h : Heap.InOrder isBefore 0 timers) :
    Cleared timers (clearTop timers) := by
  obtain ⟨hlive, hmem⟩ := clearTop_keeps timers
  refine ⟨?_, hlive, hmem, ?_⟩
  · clear hlive hmem
    fun_induction clearTop timers with
    | case1 => exact h
    | case2 timers t rest hp _ ih => exact ih (Heap.inOrder_pop? orders_isBefore h hp)
    | case3 => exact h
  · clear hlive hmem
    fun_induction clearTop timers with
    | case1 timers hp => exact fun t rest hp' => by rw [hp] at hp'; cases hp'
    | case2 timers t rest hp _ ih => exact ih (Heap.inOrder_pop? orders_isBefore h hp)
    | case3 timers t rest hp hc =>
      intro u rest' hp'
      rw [hp] at hp'
      cases hp'
      exact Bool.eq_false_iff.mpr hc

theorem cleared_clear {timers : Array (Timer τ ε)} (h : Heap.InOrder isBefore 0 timers) :
    Cleared timers (clear timers) := by
  obtain ⟨hlive, hmem⟩ := clear_keeps timers
  unfold clear at *
  split
  · refine ⟨Heap.inOrder_ofArray orders_isBefore _, ?_, ?_, fun t rest hp => ?_⟩
    · rwa [if_pos ‹_›] at hlive
    · rwa [if_pos ‹_›] at hmem
    · have ht := (Heap.ofArray_perm _ _).mem_iff.mp ((mem_pop? hp).mpr (Or.inr rfl))
      simpa using (Array.mem_filter.mp ht).2
  · exact cleared_clearTop h

/-- The timers whose time has come, and those whose time has not. -/
structure Split (now : τ) (timers : Array (Timer τ ε)) (taken : List (Timer τ ε)) (rest : Array (Timer τ ε)) :
    Prop where
  inOrder : Heap.InOrder isBefore 0 rest
  perm : (taken ++ rest.toList).Perm timers.toList
  come : ∀ t ∈ taken, t.due ≤ now
  later : ∀ t ∈ rest, now < t.due

theorem split_takeDue (now : τ) {timers : Array (Timer τ ε)} (h : Heap.InOrder isBefore 0 timers) :
    Split now timers (takeDue now timers).1 (takeDue now timers).2 := by
  have hperm := takeDue_perm now timers
  fun_induction takeDue now timers with
  | case1 timers hp =>
    have hempty := eq_empty_of_pop? hp
    subst hempty
    exact ⟨h, .refl _, by simp, by simp⟩
  | case2 timers t rest hp hc more rest' heq ih =>
    rw [heq] at ih
    have hrest := takeDue_perm now rest
    rw [heq] at hrest
    obtain ⟨ho, -, hcome, hlater⟩ := ih (Heap.inOrder_pop? orders_isBefore h hp) hrest
    exact ⟨ho, hperm, List.forall_mem_cons.mpr ⟨of_decide_eq_true hc, hcome⟩, hlater⟩
  | case3 timers t rest hp hc =>
    refine ⟨h, .refl _, by simp, fun u hu => ?_⟩
    have hnot : ¬t.due ≤ now := fun hle => hc (decide_eq_true hle)
    exact lt_of_lt_of_le (not_le.mp hnot) (due_le_of_pop? h hp u hu)

/-- What rings on a timeline as it goes on, and what is left. -/
structure Rings (l : Timeline τ ε) (rung : List (Timer τ ε)) (l' : Timeline τ ε) : Prop where
  inTime : l'.InTime
  nextId : l'.nextId = l.nextId
  now : l.now ≤ l'.now
  perm : (rung ++ live l'.timers).Perm (live l.timers)
  rung : ∀ t ∈ rung, t.due = l'.now
  later : ∀ t ∈ l'.timers, l'.now < t.due
  mem : ∀ t ∈ l'.timers, t ∈ l.timers

theorem Rings.mem_live {l l' : Timeline τ ε} {rung : List (Timer τ ε)} (h : Rings l rung l') {t : Timer τ ε} :
    t ∈ live l.timers ↔ t ∈ rung ∨ t ∈ live l'.timers := by
  rw [← h.perm.mem_iff, List.mem_append]

theorem rings_due {l : Timeline τ ε} (h : l.InTime) :
    ∃ rung, l.due.1 = rung.map (·.event) ∧ Rings l rung l.due.2 ∧ l.due.2.now = l.now := by
  have hc := cleared_clear h.inOrder
  have hs := split_takeDue l.now hc.inOrder
  have hmem : ∀ t ∈ (takeDue l.now (clear l.timers)).2, t ∈ l.timers := by
    intro t ht
    have hkept := hs.perm.mem_iff.mp (List.mem_append_right _ (Array.mem_toList_iff.mpr ht))
    exact hc.mem t (Array.mem_toList_iff.mp hkept)
  refine ⟨_, rfl, ?_, rfl⟩
  constructor
  · exact ⟨hs.inOrder, fun t ht => h.notPast t (hmem t ht), fun t ht => h.known t (hmem t ht)⟩
  · rfl
  · exact le_refl _
  · have hperm := hs.perm.filter (!·.cancelled)
    rw [List.filter_append] at hperm
    exact hperm.trans hc.live
  · intro t ht
    have ht := (List.mem_filter.mp ht).1
    have hin := hc.mem t (Array.mem_toList_iff.mp (hs.perm.mem_iff.mp (List.mem_append_left _ ht)))
    exact le_antisymm (hs.come t ht) (h.notPast t hin)
  · exact hs.later
  · exact hmem

theorem later_eq {now due : τ} (h : now ≤ due) : Clock.later now due = due := by
  unfold Clock.later
  split
  · rfl
  · rename_i hb
    exact le_antisymm h (not_lt.mp fun hlt => hb (decide_eq_true hlt))

/-- Time goes on to the first of the timers that are not cancelled. -/
theorem rings_next? {l l' : Timeline τ ε} {found : List ε} (h : l.InTime) (hn : l.next? = some (found, l')) :
    ∃ rung, found = rung.map (·.event) ∧ rung ≠ [] ∧ Rings l rung l' ∧
      ∀ t ∈ live l.timers, l'.now ≤ t.due := by
  have hc := cleared_clear h.inOrder
  unfold next? at hn
  split at hn
  · cases hn
  · rename_i t rest hp
    have hmem : ∀ u ∈ rest, u ∈ l.timers := fun u hu => hc.mem u ((mem_pop? hp).mpr (Or.inl hu))
    have hnow : Clock.later l.now t.due = t.due :=
      later_eq (h.notPast t (hc.mem t ((mem_pop? hp).mpr (Or.inr rfl))))
    have hs := split_takeDue t.due (Heap.inOrder_pop? orders_isBefore hc.inOrder hp)
    have hleast := due_le_of_pop? hc.inOrder hp
    rw [hnow] at hn
    cases hn
    have hlater : ∀ u ∈ (takeDue t.due rest).2, u ∈ rest := fun u hu =>
      Array.mem_toList_iff.mp (hs.perm.mem_iff.mp (List.mem_append_right _ (Array.mem_toList_iff.mpr hu)))
    -- No timer is due before the one on top, so whatever is taken out with it is due just when it is.
    refine ⟨(t :: (takeDue t.due rest).1).filter (!·.cancelled), rfl, ?_, ?_, ?_⟩
    · rw [List.filter_cons, hc.top t rest hp]
      exact List.cons_ne_nil _ _
    · constructor
      · refine ⟨hs.inOrder, fun u hu => le_of_lt (hs.later u hu), fun u hu => ?_⟩
        exact h.known u (hmem u (hlater u hu))
      · rfl
      · exact h.notPast t (hc.mem t ((mem_pop? hp).mpr (Or.inr rfl)))
      · have hperm := (hs.perm.cons t).filter (!·.cancelled)
        have hpop := (live_perm (Heap.pop?_perm isBefore hp)).symm
        have hpush : (live (rest.push t)).Perm ((t :: rest.toList).filter (!·.cancelled)) := by
          rw [live, Array.toList_push]
          exact (List.perm_append_singleton t rest.toList).filter _
        rw [← List.cons_append, List.filter_append] at hperm
        exact (hperm.trans hpush.symm).trans (hpop.symm.trans hc.live)
      · intro u hu
        obtain hu | hu := List.mem_cons.mp (List.mem_filter.mp hu).1
        · rw [hu]
        · refine le_antisymm (hs.come u hu) (hleast u ((mem_pop? hp).mpr (Or.inl ?_)))
          exact Array.mem_toList_iff.mp (hs.perm.mem_iff.mp (List.mem_append_left _ hu))
      · exact hs.later
      · exact fun u hu => hmem u (hlater u hu)
    · intro u hu
      exact hleast u (mem_live.mp (hc.live.mem_iff.mpr hu)).1

theorem live_eq_nil_of_next? {l : Timeline τ ε} (h : l.InTime) (hn : l.next? = none) : live l.timers = [] := by
  have hc := cleared_clear h.inOrder
  unfold next? at hn
  split at hn
  · rename_i hp
    have hl := hc.live
    rw [eq_empty_of_pop? hp] at hl
    exact (List.nil_perm.mp hl)
  · cases hn

/-! ### Setting and cancelling -/

theorem mem_set {l : Timeline τ ε} {delay : τ} {event : ε} {t : Timer τ ε} :
    t ∈ (l.set delay event).timers ↔
      t ∈ l.timers ∨ t = { id := l.nextId, due := l.now + delay, event } := by
  rw [set, (Heap.push_perm _ _ _).mem_iff, Array.mem_push]
  rfl

theorem live_set (l : Timeline τ ε) (delay : τ) (event : ε) :
    (live (l.set delay event).timers).Perm
      ({ id := l.nextId, due := l.now + delay, event } :: live l.timers) := by
  refine (live_perm (Heap.push_perm _ _ _)).trans ?_
  rw [live, Array.toList_push, List.filter_append]
  exact List.perm_append_singleton _ _

theorem inTime_set [IsOrderedAddMonoid τ] {l : Timeline τ ε} {delay : τ} (h : l.InTime) (hd : 0 ≤ delay)
    (event : ε) : (l.set delay event).InTime := by
  refine ⟨Heap.inOrder_push orders_isBefore h.inOrder _, ?_, ?_⟩
  · intro t ht
    obtain ht | rfl := mem_set.mp ht
    · exact h.notPast t ht
    · exact le_add_of_nonneg_right hd
  · intro t ht
    obtain ht | rfl := mem_set.mp ht
    · exact Nat.lt_succ_of_lt (h.known t ht)
    · exact Nat.lt_succ_self _

theorem inTime_cancel {l : Timeline τ ε} (h : l.InTime) (id : Nat) : (l.cancel id).InTime := by
  have hmem {t : Timer τ ε} (ht : t ∈ (l.cancel id).timers) : ∃ u ∈ l.timers, cancelled id u = t :=
    Array.mem_map.mp ht
  refine ⟨?_, ?_, ?_⟩
  · intro i hi ht a b ha hb
    rw [cancel, Array.getElem?_map, Option.map_eq_some_iff] at ha hb
    obtain ⟨a, ha, rfl⟩ := ha
    obtain ⟨b, hb, rfl⟩ := hb
    have := h.inOrder i hi ht a b ha hb
    rw [isBefore, due_cancelled, due_cancelled]
    exact this
  · intro t ht
    obtain ⟨u, hu, rfl⟩ := hmem ht
    rw [due_cancelled]
    exact h.notPast u hu
  · intro t ht
    obtain ⟨u, hu, rfl⟩ := hmem ht
    rw [id_cancelled]
    exact h.known u hu

end Timeline

/-! ### Triggers -/

namespace Debouncer

variable {τ φ σ : Type}

theorem cancel_keeps (d : Debouncer τ φ σ) :
    d.cancel.delay = d.delay ∧ d.cancel.state = d.state ∧ d.cancel.timeline.now = d.timeline.now := by
  unfold cancel
  split <;> exact ⟨rfl, rfl, rfl⟩

variable [AddCommGroup τ] [LinearOrder τ]

/-- The debouncer with a timer that starts a routine. -/
def armed (d : Debouncer τ φ σ) (delay : τ) (phase : φ) : Debouncer τ φ σ :=
  { d with handle := some d.timeline.nextId, timeline := d.timeline.set delay (.start phase) }

theorem trigger_eq {d : Debouncer τ φ σ} {delay : τ} (h : d.delay = .ok delay) (phase : φ) :
    d.trigger phase = .ok (d.cancel.armed delay phase) := by
  rw [trigger, h]
  rfl

theorem live_armed (d : Debouncer τ φ σ) (delay : τ) (phase : φ) :
    (Timeline.live (d.armed delay phase).timeline.timers).Perm
      (⟨d.timeline.nextId, d.timeline.now + delay, .start phase, false⟩ :: Timeline.live d.timeline.timers) :=
  Timeline.live_set d.timeline delay _

end Debouncer
end NodeLink
