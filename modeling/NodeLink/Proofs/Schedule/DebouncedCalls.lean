import NodeLink.Proofs.Schedule.Ledger
import Mathlib.Algebra.Order.Group.Int

/-!
# Which calls a debouncer makes

Triggers, cancellations and stretches of time come in any order. A trigger leads to one call after the delay
if that much time passes before the next trigger or cancellation, and to none otherwise; whether one is
pending can be read off what happened last, and what has begun comes to its end whatever happens then.
-/

namespace NodeLink.Calls

open Timeline (live)

/-- What can be done with a debouncer. -/
inductive Act (τ α : Type) where
  | trigger (arguments : α)
  | cancel
  | pass (stretch : τ)
  deriving DecidableEq, Repr

/-- What may become of triggers. -/
inductive Event where
  | triggered
  | cancelled
  | fired
  deriving DecidableEq, Repr

variable {τ α : Type} [AddCommGroup τ] [LinearOrder τ]

def act (lasting : Option (Except Fault τ)) (d : Recorder τ α) : Act τ α → Except Fault (Recorder τ α)
  | .trigger arguments => d.trigger (.begin arguments)
  | .cancel => .ok d.cancel
  | .pass stretch => .ok (d.advance (routine lasting) stretch)

def play (lasting : Option (Except Fault τ)) (d : Recorder τ α) (acts : List (Act τ α)) :
    Except Fault (Recorder τ α) :=
  acts.foldlM (act lasting) d

/-- How much time passes. -/
def elapsed : List (Act τ α) → τ
  | [] => 0
  | .pass stretch :: acts => max stretch 0 + elapsed acts
  | .trigger _ :: acts | .cancel :: acts => elapsed acts

/-- Whether some time passes, and as much as is left, before the next trigger or cancellation. -/
def lapses (left : τ) : List (Act τ α) → Bool
  | .pass stretch :: acts => left ≤ max stretch 0 || lapses (left - max stretch 0) acts
  | [] | .trigger _ :: _ | .cancel :: _ => false

/-- The calls that triggers lead to, with their times. -/
def calls (delay now : τ) : List (Act τ α) → List (τ × α)
  | [] => []
  | .trigger arguments :: acts =>
    (if lapses delay acts then [(now + delay, arguments)] else []) ++ calls delay now acts
  | .cancel :: acts => calls delay now acts
  | .pass stretch :: acts => calls delay (now + max stretch 0) acts

/-- The triggers, cancellations and calls in their order. -/
def events (delay : τ) : List (Act τ α) → List Event
  | [] => []
  | .trigger _ :: acts => .triggered :: (if lapses delay acts then [.fired] else []) ++ events delay acts
  | .cancel :: acts => .cancelled :: events delay acts
  | .pass _ :: acts => events delay acts

/-- The timers that start a call, unless they are cancelled. -/
def starters (d : Recorder τ α) : List (Timer τ (Alarm (CallPhase α))) :=
  (live d.timeline.timers).filter (·.event.isStart)

/-- A record of the beginning of a call. -/
def begins (record : CallRecord τ α) : Bool := record.moment ≠ .finish

variable {lasting : Option (Except Fault τ)} {d d' : Recorder τ α}

/-! ### What is waiting -/

def startOf? (t : Timer τ (Alarm (CallPhase α))) : Option (τ × α) :=
  match t.event with
  | .start (.begin arguments) => some (t.due, arguments)
  | .start (.finish _) | .resume .. | .wake | .visit => none

/-- The call that is waiting for its time, and the one timer that starts it. -/
def Waits (d : Recorder τ α) (waiting : Option (τ × α)) : Prop :=
  (live d.timeline.timers).filterMap startOf? = waiting.toList

omit [AddCommGroup τ] [LinearOrder τ] in
theorem isStart_of_startOf? {t : Timer τ (Alarm (CallPhase α))} (h : Proper t.event) :
    (startOf? t).isSome = t.event.isStart := by
  unfold startOf?
  match t.event, h with
  | .start (.begin _), _ | .resume _ (.finish _), _ | .wake, _ => rfl

/-- Between acts there is nothing to be done, and only a timer that starts a call may be due. -/
structure Idle (d : Recorder τ α) : Prop where
  steady : Steady d
  ready : d.ready = []
  later : ∀ t ∈ live d.timeline.timers, t.event.isStart = false → d.timeline.now < t.due

theorem Idle.waits (h : Idle d) : ∃ waiting, Waits d waiting ∧ d.pending = waiting.isSome := by
  have hcount := h.steady.count
  rw [h.ready, List.countP_nil, zero_add] at hcount
  have hlength : ((live d.timeline.timers).filterMap startOf?).length = d.handle.toList.length := by
    rw [← hcount, List.length_filterMap_eq_countP]
    refine List.countP_congr fun t ht => ?_
    rw [isStart_of_startOf? (h.steady.timers t (Timeline.mem_live.mp ht).1)]
  unfold Waits Debouncer.pending
  generalize (live d.timeline.timers).filterMap startOf? = starts at hlength ⊢
  match starts, d.handle, hlength with
  | [], none, _ => exact ⟨none, rfl, rfl⟩
  | [start], some _, _ => exact ⟨some start, rfl, rfl⟩

omit [AddCommGroup τ] [LinearOrder τ] in
theorem isStart_of_eq_some {t : Timer τ (Alarm (CallPhase α))} {call : τ × α} (h : startOf? t = some call) :
    t.event.isStart = true ∧ t.due = call.1 := by
  unfold startOf? at h
  split at h
  · rename_i he
    cases h
    rw [he]
    exact ⟨rfl, rfl⟩
  all_goals cases h

omit [AddCommGroup τ] [LinearOrder τ] in
theorem Waits.eq_some_iff {waiting : Option (τ × α)} (h : Waits d waiting) (call : τ × α) :
    waiting = some call ↔ ∃ t ∈ live d.timeline.timers, startOf? t = some call := by
  rw [← List.mem_filterMap, h, Option.mem_toList]

/-- What is owed to the record apart from the call that is waiting. -/
def settledPart (lasting : Option (Except Fault τ)) (last : τ) (d : Recorder τ α) : Multiset (CallRecord τ α) :=
  ↑d.state + ↑(((live d.timeline.timers).filter (!·.event.isStart)).flatMap (timerOwed lasting last))

/-- What calls put on record by a time. -/
def accountsOf (lasting : Option (Except Fault τ)) (last : τ) (made : List (τ × α)) : List (CallRecord τ α) :=
  made.flatMap fun call => accounts lasting last call.1 (.begin call.2)

theorem timerOwed_start {t : Timer τ (Alarm (CallPhase α))} {call : τ × α} (h : startOf? t = some call)
    (last : τ) :
    timerOwed lasting last t = if call.1 ≤ last then accounts lasting last call.1 (.begin call.2) else [] := by
  unfold startOf? at h
  split at h
  · rename_i he
    cases h
    rw [timerOwed, he]
    rfl
  all_goals cases h

variable (lasting) in
theorem ledger_timers (timers : List (Timer τ (Alarm (CallPhase α)))) (hp : ∀ t ∈ timers, Proper t.event)
    (last : τ) :
    (timers.flatMap (timerOwed lasting last)).Perm
      ((timers.filter (!·.event.isStart)).flatMap (timerOwed lasting last) ++
        accountsOf lasting last ((timers.filterMap startOf?).filter (·.1 ≤ last))) := by
  induction timers with
  | nil => exact .refl _
  | cons t timers ih =>
    obtain ⟨ht, hrest⟩ := List.forall_mem_cons.mp hp
    have hstart := isStart_of_startOf? ht
    rw [List.flatMap_cons, List.filter_cons, List.filterMap_cons]
    cases hs : startOf? t with
    | none =>
      rw [hs] at hstart
      rw [← hstart]
      exact (List.append_assoc _ _ _) ▸ (ih hrest).append_left _
    | some call =>
      rw [hs] at hstart
      rw [← hstart, timerOwed_start hs]
      by_cases hle : call.1 ≤ last
      · simp only [accountsOf, hle, if_true, List.filter_cons, List.flatMap_cons, Option.isSome_some,
          Bool.not_true, Bool.false_eq_true, if_false, decide_true]
        refine ((ih hrest).append_left _).trans ?_
        rw [← List.append_assoc, ← List.append_assoc]
        exact List.perm_append_comm.append_right _
      · simp only [hle, if_false, List.filter_cons, Option.isSome_some, Bool.not_true, Bool.false_eq_true,
          decide_false, List.nil_append]
        exact ih hrest

theorem Idle.ledger (h : Idle d) {waiting : Option (τ × α)} (hw : Waits d waiting) (last : τ) :
    ledger lasting last d = settledPart lasting last d +
      ↑(accountsOf lasting last (waiting.toList.filter (·.1 ≤ last))) := by
  have hperm := ledger_timers lasting (live d.timeline.timers)
    (fun t ht => h.steady.timers t (Timeline.mem_live.mp ht).1) last
  rw [hw] at hperm
  rw [Calls.ledger, h.ready, Multiset.coe_eq_coe.mpr hperm, ← Multiset.coe_add, settledPart]
  change _ + (0 : Multiset (CallRecord τ α)) + _ = _
  abel

/-- What an act comes to: which call is waiting then, and which have begun. -/
structure Comes (lasting : Option (Except Fault τ)) (d d' : Recorder τ α) (time : τ)
    (waiting : Option (τ × α)) (begun : List (τ × α)) : Prop where
  idle : Idle d'
  waits : Waits d' waiting
  delay : d'.delay = d.delay
  now : d'.timeline.now = time
  begins : d'.state.filter begins =
    d.state.filter begins ++ begun.map fun call => beginning lasting call.1 call.2
  settled : ∀ last, time ≤ last →
    settledPart lasting last d' = settledPart lasting last d + ↑(accountsOf lasting last begun)

/-! ### Cancelling and triggering -/

theorem Idle.no_starts (h : Idle d) (hn : d.handle = none) :
    ∀ t ∈ live d.timeline.timers, t.event.isStart = false := by
  intro t ht
  cases hs : t.event.isStart with
  | false => rfl
  | true =>
    have := h.steady.held t ht hs
    rw [hn] at this
    cases this

theorem Idle.waits_none (h : Idle d) (hn : d.handle = none) : Waits d none := by
  refine List.filterMap_eq_nil_iff.mpr fun t ht => ?_
  have hs := isStart_of_startOf? (h.steady.timers t (Timeline.mem_live.mp ht).1)
  rw [h.no_starts hn t ht] at hs
  exact Option.not_isSome_iff_eq_none.mp (by rw [hs]; simp)

/-- Only the timer of the handle would start a call, so that none does once it is cancelled. -/
theorem Idle.no_starts_cancelled (h : Idle d) {id : Nat} (hid : d.handle = some id) :
    ∀ t ∈ live (d.timeline.cancel id).timers, t.event.isStart = false := by
  intro t ht
  rw [Timeline.live_cancel] at ht
  obtain ⟨hin, hne⟩ := List.mem_filter.mp ht
  cases hs : t.event.isStart with
  | false => rfl
  | true =>
    have hheld := h.steady.held t hin hs
    rw [hid, Option.some.injEq] at hheld
    exact absurd hheld.symm (of_decide_eq_true hne)

/-- The timers of calls that have begun have other ids, so they are all left. -/
theorem Idle.kept_cancelled (h : Idle d) {id : Nat} (hid : d.handle = some id) :
    (live (d.timeline.cancel id).timers).filter (!·.event.isStart) =
      (live d.timeline.timers).filter (!·.event.isStart) := by
  rw [Timeline.live_cancel, List.filter_filter]
  refine List.filter_congr fun t ht => ?_
  by_cases hti : t.id = id
  · have hs := (h.steady.known id hid).2 t (Timeline.mem_live.mp ht).1 hti
    simp [hs]
  · simp [hti]

theorem Idle.cancelled (h : Idle d) {id : Nat} (hid : d.handle = some id) :
    Idle { d with handle := none, timeline := d.timeline.cancel id } := by
  have hnone := h.no_starts_cancelled hid
  refine ⟨⟨Timeline.inTime_cancel h.steady.inTime id, ?_, h.steady.ready, ?_, ?_, nofun⟩, h.ready, ?_⟩
  · intro t ht
    obtain ⟨u, hu, rfl⟩ := Array.mem_map.mp ht
    rw [Timeline.event_cancelled]
    exact h.steady.timers u hu
  · dsimp only
    rw [h.ready, List.countP_nil, zero_add]
    exact List.countP_eq_zero.mpr fun t ht => by simp [hnone t ht]
  · intro t ht hs
    rw [hnone t ht] at hs
    cases hs
  · intro t ht hs
    dsimp only at ht
    rw [Timeline.live_cancel] at ht
    exact h.later t (List.mem_filter.mp ht).1 hs

variable (lasting) in
theorem comes_cancel (h : Idle d) :
    Comes lasting d d.cancel d.timeline.now none [] ∧ d.cancel.handle = none := by
  unfold Debouncer.cancel
  cases hid : d.handle with
  | none =>
    refine ⟨⟨h, h.waits_none hid, rfl, rfl, ?_, fun last _ => ?_⟩, hid⟩
    · exact (List.append_nil _).symm
    · exact (add_zero _).symm
  | some id =>
    have hidle := h.cancelled hid
    refine ⟨⟨hidle, hidle.waits_none rfl, rfl, rfl, (List.append_nil _).symm, fun last _ => ?_⟩, rfl⟩
    rw [settledPart, settledPart]
    dsimp only
    rw [h.kept_cancelled hid]
    exact (add_zero _).symm

theorem Comes.trans {d'' : Recorder τ α} {time time' : τ} {waiting waiting' : Option (τ × α)}
    {begun begun' : List (τ × α)} (h : Comes lasting d d' time waiting begun)
    (h' : Comes lasting d' d'' time' waiting' begun') (hle : time ≤ time') :
    Comes lasting d d'' time' waiting' (begun ++ begun') where
  idle := h'.idle
  waits := h'.waits
  delay := h'.delay.trans h.delay
  now := h'.now
  begins := by rw [h'.begins, h.begins, List.map_append, List.append_assoc]
  settled last hl := by
    rw [h'.settled last hl, h.settled last (le_trans hle hl), accountsOf, accountsOf, accountsOf,
      List.flatMap_append, ← Multiset.coe_add]
    abel

theorem idle_armed [IsOrderedAddMonoid τ] {delay : τ} (h : Idle d) (hn : d.handle = none) (hd : 0 ≤ delay)
    (arguments : α) : Idle (d.armed delay (.begin arguments)) := by
  have hlive := Debouncer.live_armed d delay (CallPhase.begin arguments)
  have hno := h.no_starts hn
  refine ⟨⟨Timeline.inTime_set h.steady.inTime hd _, ?_, h.steady.ready, ?_, ?_, ?_⟩, h.ready, ?_⟩
  · intro t ht
    obtain ht | rfl := Timeline.mem_set.mp ht
    · exact h.steady.timers t ht
    · trivial
  · have hzero : (live d.timeline.timers).countP (·.event.isStart) = 0 :=
      List.countP_eq_zero.mpr fun t ht => by simp [hno t ht]
    rw [hlive.countP_eq, List.countP_cons, hzero]
    change d.ready.countP Task.isStart + 1 = 1
    rw [h.ready]
    rfl
  · intro t ht hs
    obtain rfl | ht := List.mem_cons.mp (hlive.mem_iff.mp ht)
    · rfl
    · rw [hno t ht] at hs
      cases hs
  · intro id hid
    cases hid
    refine ⟨Nat.lt_succ_self _, fun t ht hti => ?_⟩
    obtain ht | rfl := Timeline.mem_set.mp ht
    · exact absurd hti (Nat.ne_of_lt (h.steady.inTime.known t ht))
    · rfl
  · intro t ht hs
    obtain rfl | ht := List.mem_cons.mp (hlive.mem_iff.mp ht)
    · cases hs
    · exact h.later t ht hs

variable (lasting) in
theorem comes_armed [IsOrderedAddMonoid τ] {delay : τ} (h : Idle d) (hn : d.handle = none) (hd : 0 ≤ delay)
    (arguments : α) :
    Comes lasting d (d.armed delay (.begin arguments)) d.timeline.now
      (some (d.timeline.now + delay, arguments)) [] := by
  have hlive := Debouncer.live_armed d delay (CallPhase.begin arguments)
  refine ⟨idle_armed h hn hd arguments, ?_, rfl, rfl, (List.append_nil _).symm, fun last _ => ?_⟩
  · have hperm := hlive.filterMap startOf?
    rw [List.filterMap_cons, h.waits_none hn] at hperm
    exact List.perm_singleton.mp hperm
  · have hkept := (hlive.filter (!·.event.isStart)).flatMap_right (timerOwed lasting last)
    rw [settledPart, Multiset.coe_eq_coe.mpr hkept]
    exact (add_zero _).symm

variable (lasting) in
theorem comes_trigger [IsOrderedAddMonoid τ] {delay : τ} (h : Idle d) (hdelay : d.delay = .ok delay)
    (hd : 0 ≤ delay) (arguments : α) :
    ∃ d', d.trigger (.begin arguments) = .ok d' ∧
      Comes lasting d d' d.timeline.now (some (d.timeline.now + delay, arguments)) [] := by
  obtain ⟨hc, hn⟩ := comes_cancel lasting h
  refine ⟨_, Debouncer.trigger_eq hdelay _, ?_⟩
  have harmed := comes_armed lasting hc.idle hn hd arguments
  rw [hc.now] at harmed
  exact hc.trans harmed (le_refl _)

/-! ### Letting time pass -/

theorem begins_accounts (last time : τ) (phase : CallPhase α) :
    (accounts lasting last time phase).filter begins =
      match phase with
      | .begin arguments => [beginning lasting time arguments]
      | .finish _ => [] := by
  cases phase with
  | finish arguments => rfl
  | begin arguments =>
    have hfinish : (finishes lasting last time arguments).filter begins = [] := by
      unfold finishes
      split
      · split <;> rfl
      · rfl
      · rfl
    rw [accounts, List.filter_cons, hfinish]
    cases lasting <;> rfl

theorem begins_timerOwed {t : Timer τ (Alarm (CallPhase α))} (h : Proper t.event) (last : τ) :
    (timerOwed lasting last t).filter begins =
      (((startOf? t).toList.filter (·.1 ≤ last)).map fun call => beginning lasting call.1 call.2) := by
  unfold timerOwed startOf?
  by_cases hle : t.due ≤ last
  · rw [if_pos hle]
    match t.event, h with
    | .start (.begin arguments), _ => simp [hle, owed, Alarm.phase?, begins_accounts]
    | .resume _ (.finish _), _ | .wake, _ => rfl
  · rw [if_neg hle]
    match t.event, h with
    | .start (.begin arguments), _ => simp [hle]
    | .resume _ (.finish _), _ | .wake, _ => rfl

theorem begins_timers (timers : List (Timer τ (Alarm (CallPhase α)))) (hp : ∀ t ∈ timers, Proper t.event)
    (last : τ) :
    (timers.flatMap (timerOwed lasting last)).filter begins =
      (((timers.filterMap startOf?).filter (·.1 ≤ last)).map fun call => beginning lasting call.1 call.2) := by
  induction timers with
  | nil => rfl
  | cons t timers ih =>
    obtain ⟨ht, hrest⟩ := List.forall_mem_cons.mp hp
    rw [List.flatMap_cons, List.filter_append, begins_timerOwed ht, ih hrest, List.filterMap_cons]
    cases startOf? t with
    | none => rfl
    | some call => simp [List.filter_cons]; split <;> rfl

/-- What is put on record until nothing is left to be put there by a time is what was owed by then. -/
theorem added_perm {bound : τ} {added : List (CallRecord τ α)} (h : Idle d) (hr : d'.ready = [])
    (hdue : ∀ t ∈ live d'.timeline.timers, bound < t.due) (hadded : d.state ++ added = d'.state)
    (hledger : ledger lasting bound d' = ledger lasting bound d) :
    added.Perm ((live d.timeline.timers).flatMap (timerOwed lasting bound)) := by
  have hnone : (live d'.timeline.timers).flatMap (timerOwed lasting bound) = [] :=
    List.flatMap_eq_nil_iff.mpr fun t ht => if_neg (not_le.mpr (hdue t ht))
  rw [ledger, ledger, hr, h.ready, hnone, ← hadded, ← Multiset.coe_add] at hledger
  refine Multiset.coe_eq_coe.mp (add_left_cancel (a := (d.state : Multiset (CallRecord τ α))) ?_)
  simpa using hledger

/-- Timers that start calls are neither added nor taken away behind a time, so what waits there goes on waiting. -/
theorem Waits.later {bound : τ} {waiting : Option (τ × α)} (hw : Waits d waiting) (hleads : Leads lasting bound d d')
    (hidle : Idle d') (hdue : ∀ t ∈ live d'.timeline.timers, bound < t.due) :
    Waits d' (waiting.filter (bound < ·.1)) := by
  obtain ⟨waiting', hw', -⟩ := hidle.waits
  have heq : waiting' = waiting.filter (bound < ·.1) := by
    ext call
    rw [hw'.eq_some_iff, Option.filter_eq_some_iff, hw.eq_some_iff]
    constructor
    · rintro ⟨t, ht, hstart⟩
      obtain ⟨hs, hcall⟩ := isStart_of_eq_some hstart
      exact ⟨⟨t, (hleads.starts t (hdue t ht) hs).mp ht, hstart⟩, decide_eq_true (hcall ▸ hdue t ht)⟩
    · rintro ⟨⟨t, ht, hstart⟩, hlt⟩
      obtain ⟨hs, hcall⟩ := isStart_of_eq_some hstart
      exact ⟨t, (hleads.starts t (hcall ▸ of_decide_eq_true hlt) hs).mpr ht, hstart⟩
  rwa [← heq]

variable (lasting) in
theorem comes_advance [IsOrderedAddMonoid τ] (h : Idle d) {waiting : Option (τ × α)} (hw : Waits d waiting)
    (stretch : τ) :
    Comes lasting d (d.advance (routine lasting) stretch) (d.timeline.now + max stretch 0)
      (waiting.filter (d.timeline.now + max stretch 0 < ·.1))
      (waiting.toList.filter (·.1 ≤ d.timeline.now + max stretch 0)) := by
  obtain ⟨hleads, hsettled, hnow⟩ := leads_advance lasting h.steady stretch
  generalize d.advance (routine lasting) stretch = d' at hleads hsettled hnow
  generalize d.timeline.now + max stretch 0 = bound at hleads hnow
  have hdue : ∀ t ∈ live d'.timeline.timers, bound < t.due := fun t ht =>
    hnow ▸ hsettled.later t (Timeline.mem_live.mp ht).1
  have hidle : Idle d' := ⟨hleads.steady, hsettled.ready, fun t ht _ => hnow.symm ▸ hdue t ht⟩
  have hwaits := hw.later hleads hidle hdue
  refine ⟨hidle, hwaits, hleads.delay, hnow, ?_, fun last hl => ?_⟩
  · obtain ⟨added, hadded⟩ := hleads.records
    have hperm := added_perm h hidle.ready hdue hadded (hleads.ledger bound (le_refl _))
    have hbegins := hperm.filter begins
    rw [begins_timers _ (fun t ht => h.steady.timers t (Timeline.mem_live.mp ht).1), hw] at hbegins
    rw [← hadded, List.filter_append]
    congr 1
    -- one call at most begins, so that what is known up to the order is known
    cases waiting with
    | none => exact List.perm_nil.mp hbegins
    | some call =>
      by_cases hle : call.1 ≤ bound
      · simp only [Option.toList_some, List.filter_cons, hle, decide_true, if_true, List.filter_nil,
          List.map_cons, List.map_nil] at hbegins ⊢
        exact List.perm_singleton.mp hbegins
      · simp only [Option.toList_some, List.filter_cons, hle, decide_false, Bool.false_eq_true, if_false,
          List.filter_nil, List.map_nil] at hbegins ⊢
        exact List.perm_nil.mp hbegins
  · have hledger := hleads.ledger last hl
    rw [hidle.ledger hwaits, h.ledger hw] at hledger
    cases waiting with
    | none => simpa [accountsOf] using hledger
    | some call =>
      by_cases hle : call.1 ≤ bound
      · have hnot : ¬bound < call.1 := not_lt.mpr hle
        simpa [Option.filter_some, accountsOf, hle, hnot, le_trans hle hl] using hledger
      · have hlt : bound < call.1 := not_le.mp hle
        simp only [Option.filter_some, hlt, decide_true, if_true] at hledger
        simp only [Option.toList_some, List.filter_cons, hle, decide_false, Bool.false_eq_true, if_false,
          List.filter_nil]
        exact (add_right_cancel hledger).trans (add_zero _).symm

/-! ### Whole runs -/

/-- What a run comes to: when it ends, and the calls that have begun since. -/
structure Runs (lasting : Option (Except Fault τ)) (d d' : Recorder τ α) (time : τ) (begun : List (τ × α)) :
    Prop where
  idle : Idle d'
  now : d'.timeline.now = time
  begins : d'.state.filter begins =
    d.state.filter begins ++ begun.map fun call => beginning lasting call.1 call.2
  settled : settledPart lasting time d' = settledPart lasting time d + ↑(accountsOf lasting time begun)

theorem Comes.runs {d'' : Recorder τ α} {time time' : τ} {waiting : Option (τ × α)}
    {begun begun' : List (τ × α)} (h : Comes lasting d d' time waiting begun)
    (h' : Runs lasting d' d'' time' begun') (hle : time ≤ time') :
    Runs lasting d d'' time' (begun ++ begun') where
  idle := h'.idle
  now := h'.now
  begins := by rw [h'.begins, h.begins, List.map_append, List.append_assoc]
  settled := by
    rw [h'.settled, h.settled time' hle, accountsOf, accountsOf, accountsOf, List.flatMap_append,
      ← Multiset.coe_add]
    abel

omit [LinearOrder τ] in
theorem elapsed_nonneg [LinearOrder τ] [IsOrderedAddMonoid τ] (acts : List (Act τ α)) : 0 ≤ elapsed acts := by
  induction acts with
  | nil => exact le_refl _
  | cons a acts ih =>
    cases a with
    | trigger arguments => exact ih
    | cancel => exact ih
    | pass stretch => exact add_nonneg (le_max_right _ _) ih

/-- What comes of the call that is waiting. -/
def outcome (now : τ) (waiting : Option (τ × α)) (acts : List (Act τ α)) : List (τ × α) :=
  waiting.toList.filter fun call => lapses (call.1 - now) acts

def outcomeEvents (now : τ) (waiting : Option (τ × α)) (acts : List (Act τ α)) : List Event :=
  waiting.elim [] fun call => .triggered :: if lapses (call.1 - now) acts then [.fired] else []

/-- What went before counts for nothing where it does not end with the event, or where something follows. -/
theorem getLast?_append_iff {before after : List Event} {event : Event}
    (h : before.getLast? ≠ some event ∨ after ≠ []) :
    (before ++ after).getLast? = some event ↔ after.getLast? = some event := by
  rw [List.getLast?_append]
  cases ha : after.getLast? with
  | some last => rfl
  | none =>
    have hnil := List.getLast?_eq_none_iff.mp ha
    obtain h | h := h
    · simpa using h
    · exact absurd hnil h

theorem Idle.pending (h : Idle d) {waiting : Option (τ × α)} (hw : Waits d waiting) :
    d.pending = waiting.isSome := by
  obtain ⟨waiting', hw', hpending⟩ := h.waits
  rw [Waits, hw] at hw'
  rw [hpending]
  cases waiting <;> cases waiting' <;> first | rfl | cases hw'

theorem lapses_pass [IsOrderedAddMonoid τ] (now time stretch : τ) (acts : List (Act τ α)) :
    lapses (time - now) (.pass stretch :: acts) =
      (decide (time ≤ now + max stretch 0) || lapses (time - (now + max stretch 0)) acts) := by
  rw [lapses, sub_sub]
  congr 1
  exact decide_eq_decide.mpr sub_le_iff_le_add'

theorem outcome_pass [IsOrderedAddMonoid τ] (now stretch : τ) (waiting : Option (τ × α))
    (acts : List (Act τ α)) :
    waiting.toList.filter (·.1 ≤ now + max stretch 0) ++
        outcome (now + max stretch 0) (waiting.filter (now + max stretch 0 < ·.1)) acts =
      outcome now waiting (.pass stretch :: acts) := by
  cases waiting with
  | none => rfl
  | some call =>
    simp only [outcome, lapses_pass, Option.toList_some, List.filter_cons, List.filter_nil, Option.filter_some]
    generalize now + max stretch 0 = bound
    by_cases hle : call.1 ≤ bound
    · simp [hle]
    · simp [hle, not_le.mp hle, List.filter_cons]

theorem outcomeEvents_pass [IsOrderedAddMonoid τ] (now stretch : τ) (waiting : Option (τ × α))
    (acts : List (Act τ α)) (after : List Event) :
    (outcomeEvents (now + max stretch 0) (waiting.filter (now + max stretch 0 < ·.1)) acts ++
        after).getLast? = some .triggered ↔
      (outcomeEvents now waiting (.pass stretch :: acts) ++ after).getLast? = some .triggered := by
  cases waiting with
  | none => rfl
  | some call =>
    simp only [outcomeEvents, lapses_pass, Option.elim, Option.filter_some]
    generalize now + max stretch 0 = bound
    by_cases hle : call.1 ≤ bound
    · have hfired : ([Event.triggered, .fired] ++ after).getLast? = some .triggered ↔
          after.getLast? = some .triggered := getLast?_append_iff (Or.inl (by decide))
      simpa [hle, not_lt.mpr hle] using hfired.symm
    · simp [hle, not_le.mp hle]

/-- A run ends with the calls that its acts lead to, what waited at first included, and a trigger is pending if it is
what happened last. -/
structure PlaysOut (lasting : Option (Except Fault τ)) (delay : τ) (d : Recorder τ α) (waiting : Option (τ × α))
    (acts : List (Act τ α)) (d' : Recorder τ α) : Prop where
  play : play lasting d acts = .ok d'
  runs : Runs lasting d d' (d.timeline.now + elapsed acts)
    (outcome d.timeline.now waiting acts ++ calls delay d.timeline.now acts)
  pending : d'.pending = true ↔
    (outcomeEvents d.timeline.now waiting acts ++ events delay acts).getLast? = some .triggered

section

variable {delay : τ} {waiting : Option (τ × α)} {acts : List (Act τ α)} {mid : Recorder τ α}

theorem playsOut_nil (h : Idle d) (hw : Waits d waiting) : PlaysOut lasting delay d waiting [] d := by
  have hnone : outcome d.timeline.now waiting [] = [] := by
    cases waiting <;> rfl
  refine ⟨rfl, ⟨h, (add_zero _).symm, ?_, ?_⟩, ?_⟩
  · rw [hnone]
    exact (List.append_nil _).symm
  · rw [hnone]
    exact (add_zero _).symm
  · rw [h.pending hw]
    cases waiting with
    | none => exact ⟨nofun, nofun⟩
    | some call => exact ⟨fun _ => rfl, fun _ => rfl⟩

theorem play_cons {a : Act τ α} (hact : act lasting d a = .ok mid) (hplay : play lasting mid acts = .ok d') :
    play lasting d (a :: acts) = .ok d' := by
  rw [play, List.foldlM_cons, hact]
  exact hplay

/-- Whatever waited is replaced by the new trigger and comes to nothing. -/
theorem PlaysOut.trigger [IsOrderedAddMonoid τ] {arguments : α} (hmid : d.trigger (.begin arguments) = .ok mid)
    (hcomes : Comes lasting d mid d.timeline.now (some (d.timeline.now + delay, arguments)) [])
    (h : PlaysOut lasting delay mid (some (d.timeline.now + delay, arguments)) acts d') :
    PlaysOut lasting delay d waiting (.trigger arguments :: acts) d' := by
  obtain ⟨hplay, hruns, hpending⟩ := h
  rw [hcomes.now] at hruns hpending
  have hnone : outcome d.timeline.now waiting (.trigger arguments :: acts) = [] := by
    cases waiting <;> rfl
  have hone : outcome d.timeline.now (some (d.timeline.now + delay, arguments)) acts =
      if lapses delay acts then [(d.timeline.now + delay, arguments)] else [] := by
    simp [outcome, List.filter_cons]
  have hevents : outcomeEvents d.timeline.now (some (d.timeline.now + delay, arguments)) acts ++
      events delay acts = events delay (.trigger arguments :: acts) := by
    simp [outcomeEvents, events]
  refine ⟨play_cons hmid hplay, ?_, ?_⟩
  · have hall := hcomes.runs hruns (le_add_of_nonneg_right (elapsed_nonneg acts))
    rw [hone] at hall
    rw [hnone]
    exact hall
  · rw [hpending, hevents]
    exact (getLast?_append_iff (Or.inr (by simp [events]))).symm

theorem PlaysOut.cancel [IsOrderedAddMonoid τ] (hcomes : Comes lasting d d.cancel d.timeline.now none [])
    (h : PlaysOut lasting delay d.cancel none acts d') : PlaysOut lasting delay d waiting (.cancel :: acts) d' := by
  obtain ⟨hplay, hruns, hpending⟩ := h
  rw [hcomes.now] at hruns hpending
  have hnone : outcome d.timeline.now waiting (.cancel :: acts) = [] := by
    cases waiting <;> rfl
  refine ⟨play_cons rfl hplay, ?_, ?_⟩
  · have hall := hcomes.runs hruns (le_add_of_nonneg_right (elapsed_nonneg acts))
    rw [hnone]
    exact hall
  · have hcancelled : ([Event.cancelled] ++ events delay acts).getLast? = some .triggered ↔
        (events delay acts).getLast? = some .triggered := getLast?_append_iff (Or.inl (by decide))
    rw [hpending]
    exact hcancelled.symm.trans (getLast?_append_iff (Or.inr (List.cons_ne_nil _ _))).symm

theorem PlaysOut.pass [IsOrderedAddMonoid τ] {stretch : τ}
    (hcomes : Comes lasting d (d.advance (routine lasting) stretch) (d.timeline.now + max stretch 0)
      (waiting.filter (d.timeline.now + max stretch 0 < ·.1))
      (waiting.toList.filter (·.1 ≤ d.timeline.now + max stretch 0)))
    (h : PlaysOut lasting delay (d.advance (routine lasting) stretch)
      (waiting.filter (d.timeline.now + max stretch 0 < ·.1)) acts d') :
    PlaysOut lasting delay d waiting (.pass stretch :: acts) d' := by
  obtain ⟨hplay, hruns, hpending⟩ := h
  rw [hcomes.now] at hruns hpending
  refine ⟨play_cons rfl hplay, ?_, ?_⟩
  · have hall := hcomes.runs hruns (le_add_of_nonneg_right (elapsed_nonneg acts))
    rw [← List.append_assoc, outcome_pass, add_assoc] at hall
    exact hall
  · rw [hpending]
    exact outcomeEvents_pass _ _ _ _ _

variable (lasting) in
/-- By induction on the acts, for whatever is waiting when they begin. -/
theorem exists_playsOut [IsOrderedAddMonoid τ] (hd : 0 ≤ delay) (acts : List (Act τ α)) (h : Idle d)
    (hw : Waits d waiting) (hdelay : d.delay = .ok delay) : ∃ d', PlaysOut lasting delay d waiting acts d' := by
  induction acts generalizing d waiting with
  | nil => exact ⟨d, playsOut_nil h hw⟩
  | cons a acts ih =>
    cases a with
    | trigger arguments =>
      obtain ⟨mid, hmid, hcomes⟩ := comes_trigger lasting h hdelay hd arguments
      obtain ⟨d', hplays⟩ := ih hcomes.idle hcomes.waits (hcomes.delay.trans hdelay)
      exact ⟨d', hplays.trigger hmid hcomes⟩
    | cancel =>
      obtain ⟨hcomes, -⟩ := comes_cancel lasting h
      obtain ⟨d', hplays⟩ := ih hcomes.idle hcomes.waits (hcomes.delay.trans hdelay)
      exact ⟨d', hplays.cancel hcomes⟩
    | pass stretch =>
      have hcomes := comes_advance lasting h hw stretch
      obtain ⟨d', hplays⟩ := ih hcomes.idle hcomes.waits (hcomes.delay.trans hdelay)
      exact ⟨d', hplays.pass hcomes⟩

end

theorem idle_debouncer (delay : Except Fault τ) : Idle (debouncer delay : Recorder τ α) := by
  refine ⟨⟨⟨?_, by simp [debouncer], by simp [debouncer]⟩, by simp [debouncer], by simp [debouncer], rfl,
    by simp [debouncer, live], by simp [debouncer]⟩, rfl, by simp [debouncer, live]⟩
  exact fun i _ _ => Heap.fits_of_size_le (Nat.zero_le _)

theorem ids_starters (h : Idle d) : (starters d).map (·.id) = d.handle.toList := by
  have hcount := h.steady.count
  rw [h.ready, List.countP_nil, zero_add, List.countP_eq_length_filter] at hcount
  change (starters d).length = _ at hcount
  have hheld : ∀ t ∈ starters d, d.handle = some t.id := fun t ht =>
    h.steady.held t (List.mem_filter.mp ht).1 (List.mem_filter.mp ht).2
  generalize starters d = timers at hcount hheld ⊢
  cases hid : d.handle with
  | none =>
    rw [hid] at hcount
    rw [List.length_eq_zero_iff.mp hcount]
    rfl
  | some id =>
    rw [hid] at hcount hheld
    obtain ⟨t, rfl⟩ := List.length_eq_one_iff.mp hcount
    have := hheld t List.mem_cons_self
    rw [this]
    rfl

/-- When nothing but a start may be due, all that is owed by now is on record. -/
theorem Idle.settledPart (h : Idle d) : settledPart lasting d.timeline.now d = ↑d.state := by
  have hnone : ((live d.timeline.timers).filter (!·.event.isStart)).flatMap
      (timerOwed lasting d.timeline.now) = [] := by
    refine List.flatMap_eq_nil_iff.mpr fun t ht => if_neg (not_le.mpr ?_)
    obtain ⟨hin, hs⟩ := List.mem_filter.mp ht
    exact h.later t hin (by simpa using hs)
  rw [Calls.settledPart, hnone]
  exact add_zero _

/-- Whatever is done with a debouncer, it makes just the calls that triggers lead to, in their order, each
after the delay and with its own arguments. Everything else on record is the ends of these calls, which come
whatever has been done since. The one timer that would start a call is that of the handle, and a trigger is
pending if it is what happened last. -/
theorem debounced_calls [IsOrderedAddMonoid τ] (lasting : Option (Except Fault τ)) {delay : τ}
    (hd : 0 ≤ delay) (acts : List (Act τ α)) :
    ∃ d, play lasting (debouncer (.ok delay)) acts = .ok d ∧ d.timeline.now = elapsed acts ∧
      d.state.filter begins =
        ((calls delay 0 acts).map fun call => beginning lasting call.1 call.2) ∧
      d.state.Perm (accountsOf lasting (elapsed acts) (calls delay 0 acts)) ∧
      (starters d).map (·.id) = d.handle.toList ∧
      (d.pending = true ↔ (events delay acts).getLast? = some .triggered) := by
  have hidle := idle_debouncer (τ := τ) (α := α) (.ok delay)
  obtain ⟨d, hplay, hruns, hpending⟩ :=
    exists_playsOut lasting hd acts hidle (hidle.waits_none rfl) rfl
  have hnow : d.timeline.now = elapsed acts := hruns.now.trans (zero_add _)
  refine ⟨d, hplay, hnow, hruns.begins, ?_, ids_starters hruns.idle, hpending⟩
  have hsettled := hruns.settled
  rw [← hruns.now, hruns.idle.settledPart] at hsettled
  rw [← hnow]
  refine Multiset.coe_eq_coe.mp (hsettled.trans ?_)
  exact zero_add _

/-- A trigger that is replaced, one that is not, and one that is cancelled while its predecessor's call
lasts. -/
theorem replaced_and_cancelled :
    ∃ d, play (some (.ok 4)) (debouncer (.ok (2 : ℤ)))
        [.trigger 'a', .pass 1, .trigger 'b', .pass 2, .trigger 'c', .cancel, .pass 5, .trigger 'd'] = .ok d ∧
      d.state.Perm [⟨3, .start, 'b'⟩, ⟨7, .finish, 'b'⟩] ∧ d.pending = true := by
  obtain ⟨d, hplay, -, -, hrecords, -, hpending⟩ := debounced_calls (some (.ok 4)) (by decide : (0 : ℤ) ≤ 2)
    [.trigger 'a', .pass 1, .trigger 'b', .pass 2, .trigger 'c', .cancel, .pass 5, .trigger 'd']
  exact ⟨d, hplay, hrecords, hpending.mpr (by decide)⟩

end NodeLink.Calls
