import NodeLink.Schedule.Calls
import NodeLink.Proofs.Schedule.Timers
import Mathlib.Algebra.Order.Group.Multiset
import Mathlib.Tactic.Abel

/-!
# What debounced calls owe to the record

What is on record, what tasks and timers will put there, and when: while time passes, the sum of these does
not change. The one timer that starts a call is that of the handle.
-/

namespace NodeLink

def Alarm.phase? {φ : Type} : Alarm φ → Option φ
  | .start phase => some phase
  | .resume _ phase => some phase
  | .wake | .visit => none

def Alarm.isStart {φ : Type} : Alarm φ → Bool
  | .start _ => true
  | .resume .. | .wake | .visit => false

def Task.phase? {φ : Type} : Task φ → Option φ
  | .ring alarm => alarm.phase?
  | .run _ phase => some phase
  | .visit => none

def Task.isStart {φ : Type} : Task φ → Bool
  | .ring alarm => alarm.isStart
  | .run .. | .visit => false

namespace Calls

open Timeline (live)

variable {τ α : Type}

/-- A debouncer whose calls are put on record. -/
abbrev Recorder (τ α : Type) := Debouncer τ (CallPhase α) (List (CallRecord τ α))

/-- A call begins when its timer starts it, and it ends when its timer goes on with it. -/
def Proper : Alarm (CallPhase α) → Prop
  | .start (.begin _) | .resume _ (.finish _) | .wake => True
  | .start (.finish _) | .resume _ (.begin _) | .visit => False

def ProperTask : Task (CallPhase α) → Prop
  | .ring alarm => Proper alarm
  | .run .. => True
  | .visit => False

variable [AddCommGroup τ] [LinearOrder τ]

section

variable (lasting : Option (Except Fault τ)) (last time : τ)

/-- The record of a call that begins. -/
def beginning (arguments : α) : CallRecord τ α := ⟨time, if lasting.isSome then .start else .atOnce, arguments⟩

/-- The record of the end of a call that begins at a time, if it lasts and comes to its end by the last one. -/
def finishes (arguments : α) : List (CallRecord τ α) :=
  match lasting with
  | some (.ok pause) =>
    if time + max pause 0 ≤ last then [⟨time + max pause 0, .finish, arguments⟩] else []
  | some (.error _) | none => []

theorem finishes_ok (pause : τ) (arguments : α) :
    finishes (some (.ok pause)) last time arguments =
      if time + max pause 0 ≤ last then [⟨time + max pause 0, .finish, arguments⟩] else [] := rfl

/-- What a phase that comes at a time leads to on record, by the last time. -/
def accounts : CallPhase α → List (CallRecord τ α)
  | .begin arguments => beginning lasting time arguments :: finishes lasting last time arguments
  | .finish arguments => [⟨time, .finish, arguments⟩]

def owed (phase? : Option (CallPhase α)) : List (CallRecord τ α) := phase?.elim [] (accounts lasting last time)

end

def timerOwed (lasting : Option (Except Fault τ)) (last : τ) (t : Timer τ (Alarm (CallPhase α))) :
    List (CallRecord τ α) :=
  if t.due ≤ last then owed lasting last t.due t.event.phase? else []

/-- What is on record, and what tasks and timers will put there by the last time. -/
def ledger (lasting : Option (Except Fault τ)) (last : τ) (d : Recorder τ α) : Multiset (CallRecord τ α) :=
  ↑d.state + ↑(d.ready.flatMap fun task => owed lasting last d.timeline.now task.phase?) +
    ↑((live d.timeline.timers).flatMap (timerOwed lasting last))

/-- Timers are those of calls, and the handle is that of the one that starts a call, if there is one. -/
structure Steady (d : Recorder τ α) : Prop where
  inTime : d.timeline.InTime
  timers : ∀ t ∈ d.timeline.timers, Proper t.event
  ready : ∀ task ∈ d.ready, ProperTask task
  count : d.ready.countP Task.isStart + (live d.timeline.timers).countP (·.event.isStart) =
    d.handle.toList.length
  held : ∀ t ∈ live d.timeline.timers, t.event.isStart → d.handle = some t.id
  known : ∀ id, d.handle = some id →
    id < d.timeline.nextId ∧ ∀ t ∈ d.timeline.timers, t.id = id → t.event.isStart

/-- The timer of a number rings at a time, or has rung then. -/
structure Awaited (id : Nat) (due : τ) (d : Recorder τ α) : Prop where
  known : id < d.timeline.nextId
  only : ∀ t ∈ d.timeline.timers, t.id = id → t.due = due ∧ t.cancelled = false
  there : (∃ t ∈ d.timeline.timers, t.id = id) ∨ d.timeline.now = due

/-- What becomes of a recorder up to a time. -/
structure Leads (lasting : Option (Except Fault τ)) (bound : τ) (d d' : Recorder τ α) : Prop where
  steady : Steady d'
  ledger : ∀ last, bound ≤ last → ledger lasting last d' = Calls.ledger lasting last d
  records : d.state <+: d'.state
  delay : d'.delay = d.delay
  now : d'.timeline.now ≤ bound
  starts : ∀ t : Timer τ (Alarm (CallPhase α)), bound < t.due → t.event.isStart →
    (t ∈ live d'.timeline.timers ↔ t ∈ live d.timeline.timers)
  awaited : ∀ id, Awaited id bound d → Awaited id bound d'

variable {lasting : Option (Except Fault τ)} {bound : τ} {d d' d'' : Recorder τ α}

theorem Leads.trans (h : Leads lasting bound d d') (h' : Leads lasting bound d' d'') :
    Leads lasting bound d d'' where
  steady := h'.steady
  ledger last hl := (h'.ledger last hl).trans (h.ledger last hl)
  records := h.records.trans h'.records
  delay := h'.delay.trans h.delay
  now := h'.now
  starts t ht hs := (h'.starts t ht hs).trans (h.starts t ht hs)
  awaited id ha := h'.awaited id (h.awaited id ha)

/-! ### Setting timers that start no call -/

section

variable {pause : τ} {event : Alarm (CallPhase α)}

theorem ledger_set (last : τ) :
    ledger lasting last { d with timeline := d.timeline.set pause event } =
      ledger lasting last d + ↑(if d.timeline.now + pause ≤ last then
        owed lasting last (d.timeline.now + pause) event.phase? else []) := by
  have h := (Timeline.live_set d.timeline pause event).flatMap_right (timerOwed lasting last)
  have h' := Multiset.coe_eq_coe.mpr h
  rw [List.flatMap_cons, ← Multiset.coe_add] at h'
  simp only [ledger]
  rw [h']
  unfold timerOwed
  dsimp only
  change (_ : Multiset (CallRecord τ α)) + ↑(d.ready.flatMap fun task =>
    owed lasting last d.timeline.now task.phase?) + _ = _
  abel

theorem Steady.set [IsOrderedAddMonoid τ] (h : Steady d) (hpause : 0 ≤ pause) (hp : Proper event)
    (hs : event.isStart = false) : Steady { d with timeline := d.timeline.set pause event } := by
  have hlive := Timeline.live_set d.timeline pause event
  constructor
  · exact Timeline.inTime_set h.inTime hpause event
  · intro t ht
    obtain ht | rfl := Timeline.mem_set.mp ht
    · exact h.timers t ht
    · exact hp
  · exact h.ready
  · dsimp only
    rw [hlive.countP_eq, List.countP_cons, hs]
    exact h.count
  · intro t ht hstart
    obtain rfl | ht := List.mem_cons.mp (hlive.mem_iff.mp ht)
    · rw [hs] at hstart
      cases hstart
    · exact h.held t ht hstart
  · intro id hid
    obtain ⟨hlt, hstart⟩ := h.known id hid
    refine ⟨Nat.lt_succ_of_lt hlt, fun t ht hti => ?_⟩
    obtain ht | rfl := Timeline.mem_set.mp ht
    · exact hstart t ht hti
    · exact absurd hti (by dsimp only; omega)

theorem Awaited.set {id : Nat} {due : τ} (h : Awaited id due d) :
    Awaited id due { d with timeline := d.timeline.set pause event } := by
  constructor
  · exact Nat.lt_succ_of_lt h.known
  · intro t ht hti
    obtain ht | rfl := Timeline.mem_set.mp ht
    · exact h.only t ht hti
    · have := h.known
      exact absurd hti (by dsimp only; omega)
  · obtain ⟨t, ht, hti⟩ | hnow := h.there
    · exact Or.inl ⟨t, Timeline.mem_set.mpr (Or.inl ht), hti⟩
    · exact Or.inr hnow

end

/-! ### Doing tasks -/

theorem Steady.withReady (h : Steady d) {tasks : List (Task (CallPhase α))}
    (hp : ∀ task ∈ tasks, ProperTask task) (hc : tasks.countP Task.isStart = d.ready.countP Task.isStart) :
    Steady { d with ready := tasks } :=
  ⟨h.inTime, h.timers, hp, by dsimp only; rw [hc]; exact h.count, h.held, h.known⟩

theorem leads_wake {rest : List (Task (CallPhase α))} (h : Steady d) (hb : d.timeline.now ≤ bound)
    (hr : d.ready = .ring .wake :: rest) : Leads lasting bound d { d with ready := rest } := by
  refine ⟨h.withReady ?_ ?_, ?_, List.prefix_rfl, rfl, hb, fun _ _ _ => Iff.rfl, fun _ ha => ⟨ha.1, ha.2, ha.3⟩⟩
  · exact fun task ht => h.ready task (hr ▸ List.mem_cons_of_mem _ ht)
  · rw [hr]
    rfl
  · intro last _
    rw [ledger, ledger, hr]
    rfl

/-- A phase may be left to be done behind other tasks. -/
theorem proper_concat_run {tasks : List (Task (CallPhase α))} (h : ∀ task ∈ tasks, ProperTask task) (n : Nat)
    (phase : CallPhase α) : ∀ task ∈ tasks ++ [.run n phase], ProperTask task := by
  intro task ht
  obtain ht | ht := List.mem_append.mp ht
  · exact h task ht
  · rw [List.mem_singleton.mp ht]
    trivial

/-- What the first task owes is owed when its phase is put behind the others. -/
theorem ledger_requeue {rest : List (Task (CallPhase α))} {task : Task (CallPhase α)} {phase : CallPhase α}
    (hr : d.ready = task :: rest) (hphase : task.phase? = some phase) (n : Nat) (last : τ) :
    ledger lasting last { d with ready := rest ++ [.run n phase] } = ledger lasting last d := by
  have hrun : (Task.run n phase).phase? = task.phase? := hphase.symm
  simp only [ledger, hr, List.flatMap_append, List.flatMap_cons, List.flatMap_nil, List.append_nil,
    ← Multiset.coe_add, hrun]
  abel

theorem leads_resume {rest : List (Task (CallPhase α))} {n : Nat} {phase : CallPhase α} (h : Steady d)
    (hb : d.timeline.now ≤ bound) (hr : d.ready = .ring (.resume n phase) :: rest) :
    Leads lasting bound d { d with ready := rest ++ [.run n phase] } := by
  refine ⟨h.withReady ?_ ?_, ?_, List.prefix_rfl, rfl, hb, fun _ _ _ => Iff.rfl, fun _ ha => ⟨ha.1, ha.2, ha.3⟩⟩
  · exact proper_concat_run (fun task ht => h.ready task (hr ▸ List.mem_cons_of_mem _ ht)) _ phase
  · rw [hr, List.countP_append, List.countP_cons]
    rfl
  · exact fun last _ => ledger_requeue hr rfl _ last

theorem leads_start {rest : List (Task (CallPhase α))} {phase : CallPhase α} (h : Steady d)
    (hb : d.timeline.now ≤ bound) (hr : d.ready = .ring (.start phase) :: rest) :
    Leads lasting bound d { d with handle := none, started := d.started + 1,
                                   ready := rest ++ [.run d.started phase] } := by
  have hcount := h.count
  rw [hr, List.countP_cons] at hcount
  have hring : (Task.ring (.start phase)).isStart = true := rfl
  have hone : d.handle.toList.length ≤ 1 := by cases d.handle <;> simp
  rw [hring, if_pos rfl] at hcount
  have hrest : rest.countP Task.isStart = 0 := by omega
  have hlive : (live d.timeline.timers).countP (·.event.isStart) = 0 := by omega
  refine ⟨⟨h.inTime, h.timers, ?_, ?_, ?_, nofun⟩, ?_, List.prefix_rfl, rfl, hb, fun _ _ _ => Iff.rfl,
    fun _ ha => ⟨ha.1, ha.2, ha.3⟩⟩
  · exact proper_concat_run (fun task ht => h.ready task (hr ▸ List.mem_cons_of_mem _ ht)) _ phase
  · rw [List.countP_append, hrest, hlive]
    rfl
  · exact fun t ht hs => absurd hs (List.countP_eq_zero.mp hlive t ht)
  · exact fun last _ => ledger_requeue hr rfl _ last

/-- The end of a call that has begun is done at once or left to a timer. -/
theorem steady_goOn [IsOrderedAddMonoid τ] (h : Steady d) (pause : τ) (n : Nat) (arguments : α) :
    Steady (d.goOn pause n (.finish arguments)) := by
  unfold Debouncer.goOn
  split
  · refine h.withReady ?_ ?_
    · exact proper_concat_run h.ready n _
    · rw [List.countP_append]
      rfl
  · rename_i hover
    exact h.set (le_of_lt (not_le.mp fun hle => hover (decide_eq_true hle))) trivial rfl

theorem ledger_goOn {last : τ} (hl : d.timeline.now ≤ last) (pause : τ) (n : Nat) (arguments : α) :
    ledger lasting last (d.goOn pause n (.finish arguments)) = ledger lasting last d +
      ↑(finishes (some (.ok pause)) last d.timeline.now arguments) := by
  rw [finishes_ok]
  unfold Debouncer.goOn
  split
  · rename_i hover
    have hmax : max pause 0 = 0 := max_eq_right (of_decide_eq_true hover)
    rw [hmax, add_zero, if_pos hl]
    simp only [ledger, List.flatMap_append, List.flatMap_cons, List.flatMap_nil, List.append_nil,
      ← Multiset.coe_add, Task.phase?, owed, Option.elim, accounts]
    abel
  · rename_i hover
    have hmax : max pause 0 = pause :=
      max_eq_left (le_of_lt (not_le.mp fun hle => hover (decide_eq_true hle)))
    rw [hmax]
    exact ledger_set last

theorem goOn_keeps (d : Recorder τ α) (pause : τ) (n : Nat) (phase : CallPhase α) :
    (d.goOn pause n phase).state = d.state ∧ (d.goOn pause n phase).delay = d.delay ∧
      (d.goOn pause n phase).timeline.now = d.timeline.now := by
  unfold Debouncer.goOn
  split <;> exact ⟨rfl, rfl, rfl⟩

theorem now_perform (r : Routine τ (CallPhase α) (List (CallRecord τ α))) (d : Recorder τ α)
    (task : Task (CallPhase α)) : (Debouncer.perform r d task).timeline.now = d.timeline.now := by
  match task with
  | .ring (.start _) | .ring (.resume _ _) | .ring .wake | .ring .visit | .visit => rfl
  | .run n phase =>
    change (Debouncer.runPhase r d n phase).timeline.now = d.timeline.now
    unfold Debouncer.runPhase
    split
    · rfl
    · rename_i state pause later _
      exact (goOn_keeps { d with state := state } pause n later).2.2

theorem Awaited.goOn {id : Nat} (h : Awaited id bound d) (pause : τ) (n : Nat) (phase : CallPhase α) :
    Awaited id bound (d.goOn pause n phase) := by
  unfold Debouncer.goOn
  split
  · exact ⟨h.1, h.2, h.3⟩
  · exact h.set

theorem starts_goOn {t : Timer τ (Alarm (CallPhase α))} (ht : t.event.isStart) (pause : τ) (n : Nat)
    (phase : CallPhase α) :
    t ∈ live (d.goOn pause n phase).timeline.timers ↔ t ∈ live d.timeline.timers := by
  unfold Debouncer.goOn
  split
  · rfl
  · rw [(Timeline.live_set d.timeline pause _).mem_iff, List.mem_cons, or_iff_right]
    rintro rfl
    cases ht

section

variable {rest : List (Task (CallPhase α))} {n : Nat} {phase : CallPhase α}

theorem Steady.recorded (h : Steady d) (hr : d.ready = .run n phase :: rest) (record : CallRecord τ α) :
    Steady { d with ready := rest, state := d.state ++ [record] } := by
  have hrest : ∀ task ∈ rest, ProperTask task := fun task ht => h.ready task (hr ▸ List.mem_cons_of_mem _ ht)
  have hcount : rest.countP Task.isStart = d.ready.countP Task.isStart := by
    rw [hr]
    rfl
  have hs := h.withReady hrest hcount
  exact ⟨hs.1, hs.2, hs.3, hs.4, hs.5, hs.6⟩

/-- Once the first of what a phase owes is on record, the others remain. -/
theorem ledger_recorded {last : τ} {record : CallRecord τ α} {others : List (CallRecord τ α)}
    (hr : d.ready = .run n phase :: rest)
    (hacc : accounts lasting last d.timeline.now phase = record :: others) :
    ledger lasting last d =
      ledger lasting last { d with ready := rest, state := d.state ++ [record] } + ↑others := by
  have hcons : record :: others = [record] ++ others := rfl
  simp only [ledger, hr, List.flatMap_cons, ← Multiset.coe_add, Task.phase?, owed, Option.elim, hacc, hcons]
  abel

/-- A phase that nothing follows is done with once it is on record. -/
theorem leads_recorded (h : Steady d) (hb : d.timeline.now ≤ bound) (hr : d.ready = .run n phase :: rest)
    {record : CallRecord τ α} (hacc : ∀ last, accounts lasting last d.timeline.now phase = [record]) :
    Leads lasting bound d { d with ready := rest, state := d.state ++ [record] } := by
  refine ⟨h.recorded hr record, fun last _ => ?_, List.prefix_append _ _, rfl, hb, fun _ _ _ => Iff.rfl,
    fun _ ha => ⟨ha.1, ha.2, ha.3⟩⟩
  rw [ledger_recorded hr (hacc last)]
  exact (add_zero _).symm

/-- A call that lasts puts its start on record, and its end remains to be done. -/
theorem leads_begin [IsOrderedAddMonoid τ] {arguments : α} (h : Steady d) (hb : d.timeline.now ≤ bound)
    (hr : d.ready = .run n (.begin arguments) :: rest) (pause : τ) :
    Leads (some (.ok pause)) bound d
      (Debouncer.runPhase (routine (some (.ok pause))) { d with ready := rest } n (.begin arguments)) := by
  let record : CallRecord τ α := ⟨d.timeline.now, .start, arguments⟩
  let begun : Recorder τ α := { d with ready := rest, state := d.state ++ [record] }
  obtain ⟨hstate, hdelay, hnow⟩ := goOn_keeps begun pause n (.finish arguments)
  change Leads _ bound d (begun.goOn pause n (.finish arguments))
  refine ⟨steady_goOn (h.recorded hr record) pause n arguments, fun last hl => ?_, ?_, hdelay, ?_, ?_, ?_⟩
  · rw [ledger_goOn (d := begun) (le_trans hb hl) pause n arguments]
    exact (ledger_recorded hr rfl).symm
  · rw [hstate]
    exact List.prefix_append _ _
  · rw [hnow]
    exact hb
  · exact fun t _ ht => starts_goOn (d := begun) ht pause n _
  · exact fun id ha => Awaited.goOn (d := begun) ⟨ha.1, ha.2, ha.3⟩ pause n _

/-- A phase puts itself on record, and what comes of it remains to be done. -/
theorem leads_run [IsOrderedAddMonoid τ] (h : Steady d) (hb : d.timeline.now ≤ bound)
    (hr : d.ready = .run n phase :: rest) :
    Leads lasting bound d (Debouncer.runPhase (routine lasting) { d with ready := rest } n phase) := by
  match phase, lasting with
  | .finish _, _ => exact leads_recorded h hb hr fun _ => rfl
  | .begin _, none => exact leads_recorded h hb hr fun _ => rfl
  | .begin _, some (.error _) => exact leads_recorded h hb hr fun _ => rfl
  | .begin _, some (.ok pause) => exact leads_begin h hb hr pause

end

variable (lasting) in
theorem leads_perform [IsOrderedAddMonoid τ] {rest : List (Task (CallPhase α))} {task : Task (CallPhase α)}
    (h : Steady d) (hb : d.timeline.now ≤ bound) (hr : d.ready = task :: rest) :
    Leads lasting bound d (Debouncer.perform (routine lasting) { d with ready := rest } task) := by
  have hp := h.ready task (hr ▸ List.mem_cons_self)
  match task, hp with
  | .ring (.start _), _ => exact leads_start h hb hr
  | .ring (.resume _ _), _ => exact leads_resume h hb hr
  | .ring .wake, _ => exact leads_wake h hb hr
  | .run _ _, _ => exact leads_run h hb hr

/-! ### Timers that ring -/

variable (lasting) in
/-- Timers that ring leave their alarms to be done. -/
theorem leads_rings {rung : List (Timer τ (Alarm (CallPhase α)))} {l : Timeline τ (Alarm (CallPhase α))}
    (h : Steady d) (hr : d.ready = []) (hrings : Timeline.Rings d.timeline rung l) (hb : l.now ≤ bound) :
    Leads lasting bound d { d with ready := (rung.map (·.event)).map .ring, timeline := l } := by
  have hlive {t : Timer τ (Alarm (CallPhase α))} (ht : t ∈ live l.timers) : t ∈ live d.timeline.timers :=
    hrings.mem_live.mpr (Or.inr ht)
  have hrung {t : Timer τ (Alarm (CallPhase α))} (ht : t ∈ rung) : t ∈ d.timeline.timers :=
    (Timeline.mem_live.mp (hrings.mem_live.mpr (Or.inl ht))).1
  refine ⟨⟨hrings.inTime, fun t ht => h.timers t (hrings.mem t ht), ?_, ?_, ?_, ?_⟩, ?_, List.prefix_rfl, rfl,
    hb, ?_, ?_⟩
  · intro task ht
    rw [List.map_map] at ht
    obtain ⟨t, hin, rfl⟩ := List.mem_map.mp ht
    exact h.timers t (hrung hin)
  · have hcount := h.count
    rw [hr, ← hrings.perm.countP_eq, List.countP_append, List.countP_nil, zero_add] at hcount
    rw [List.map_map, List.countP_map]
    exact hcount
  · exact fun t ht => h.held t (hlive ht)
  · intro id hid
    obtain ⟨hlt, hstart⟩ := h.known id hid
    exact ⟨hrings.nextId ▸ hlt, fun t ht => hstart t (hrings.mem t ht)⟩
  · intro last hl
    -- What the timers that ring have owed is owed by their alarms from now on.
    have hperm := Multiset.coe_eq_coe.mpr (hrings.perm.flatMap_right (timerOwed lasting last))
    have hnow : rung.flatMap (timerOwed lasting last) =
        ((rung.map (·.event)).map Task.ring).flatMap fun task => owed lasting last l.now task.phase? := by
      rw [List.map_map, List.flatMap_map]
      refine List.flatMap_congr fun t ht => ?_
      rw [timerOwed, hrings.rung t ht, if_pos (le_trans hb hl)]
      rfl
    rw [List.flatMap_append, hnow, ← Multiset.coe_add] at hperm
    simp only [ledger, hr, ← hperm, List.flatMap_nil]
    change _ = ↑d.state + (0 : Multiset (CallRecord τ α)) + _
    abel
  · intro t ht _
    refine ⟨hlive, fun hin => (hrings.mem_live.mp hin).resolve_left fun hin => ?_⟩
    have hdue := hrings.rung t hin
    exact absurd (lt_of_lt_of_le ht (hdue ▸ hb)) (lt_irrefl _)
  · intro id ha
    refine ⟨hrings.nextId ▸ ha.known, fun t ht => ha.only t (hrings.mem t ht), ?_⟩
    obtain ⟨t, ht, hti⟩ | hnow := ha.there
    · obtain ⟨hdue, hc⟩ := ha.only t ht hti
      obtain hin | hin := hrings.mem_live.mp (Timeline.mem_live.mpr ⟨ht, hc⟩)
      · exact Or.inr ((hrings.rung t hin).symm.trans hdue)
      · exact Or.inl ⟨t, (Timeline.mem_live.mp hin).1, hti⟩
    · exact Or.inr (le_antisymm hb (hnow ▸ hrings.now))

/-- Nothing is left to be done now, and no timer is due. -/
structure Settled (d : Recorder τ α) : Prop where
  ready : d.ready = []
  later : ∀ t ∈ d.timeline.timers, d.timeline.now < t.due

variable (lasting) in
theorem leads_settle [IsOrderedAddMonoid τ] (h : Steady d) (hb : d.timeline.now ≤ bound) :
    Leads lasting bound d (Debouncer.settle (routine lasting) d) ∧
      Settled (Debouncer.settle (routine lasting) d) ∧
      (Debouncer.settle (routine lasting) d).timeline.now = d.timeline.now := by
  -- tasks come first; where there are none, the timers that are due give some
  fun_induction Debouncer.settle (routine lasting) d with
  | case1 d hr timeline hd =>
    obtain ⟨rung, hevents, hrings, hnow⟩ := Timeline.rings_due h.inTime
    rw [hd] at hevents hrings hnow
    have hnone : rung = [] := List.map_eq_nil_iff.mp hevents.symm
    have hleads := leads_rings lasting h hr hrings (le_of_eq_of_le hnow hb)
    subst hnone
    have heq : { d with ready := [], timeline := timeline } = { d with timeline := timeline } := by rw [← hr]
    rw [List.map_nil, List.map_nil, heq] at hleads
    exact ⟨hleads, ⟨hr, hrings.later⟩, hnow⟩
  | case2 d hr alarm alarms timeline hd ih =>
    obtain ⟨rung, hevents, hrings, hnow⟩ := Timeline.rings_due h.inTime
    rw [hd] at hevents hrings hnow
    have hleads := leads_rings lasting h hr hrings (le_of_eq_of_le hnow hb)
    rw [← hevents] at hleads
    obtain ⟨hmore, hsettled, hlast⟩ := ih hleads.steady hleads.now
    exact ⟨hleads.trans hmore, hsettled, hlast.trans hnow⟩
  | case3 d task rest hr hvisit =>
    have hp := h.ready task (hr ▸ List.mem_cons_self)
    cases task with
    | ring => cases hvisit
    | run => cases hvisit
    | visit => cases hp
  | case4 d task rest hr _ ih =>
    have hleads := leads_perform lasting h hb hr
    obtain ⟨hmore, hsettled, hlast⟩ := ih hleads.steady hleads.now
    exact ⟨hleads.trans hmore, hsettled, hlast.trans (now_perform _ _ task)⟩

/-- Time passes until the sleeper's timer has rung, or not at all. -/
def Sleeps (sleeper : Option Nat) (bound : τ) (d : Recorder τ α) : Prop :=
  match sleeper with
  | some id => Awaited id bound d
  | none => d.timeline.now = bound

theorem Sleeps.after {sleeper : Option Nat} (hs : Sleeps sleeper bound d) (h : Leads lasting bound d d')
    (hnow : d'.timeline.now = d.timeline.now) : Sleeps sleeper bound d' := by
  cases sleeper with
  | none => exact hnow.trans hs
  | some id => exact h.awaited id hs

omit [AddCommGroup τ] [LinearOrder τ] in
theorem awaits_some {id : Nat} :
    d.awaits (some id) = true ↔ ∃ t ∈ d.timeline.timers, t.id = id := by
  simp [Debouncer.awaits, Timeline.holds, Array.any_eq_true, Array.mem_iff_getElem]

omit [AddCommGroup τ] in
theorem Settled.awaits_of_go (h : Settled d) {sleeper : Option Nat}
    (hgo : ¬(d.isVisited || !d.awaits sleeper) = true) : d.awaits sleeper = true := by
  rw [Debouncer.isVisited, h.ready] at hgo
  simpa using hgo

omit [AddCommGroup τ] in
theorem now_of_stop (h : Settled d) {sleeper : Option Nat} (hs : Sleeps sleeper bound d)
    (hstop : (d.isVisited || !d.awaits sleeper) = true) : d.timeline.now = bound := by
  rw [Debouncer.isVisited, h.ready] at hstop
  have hawaits : d.awaits sleeper = false := by simpa using hstop
  cases sleeper with
  | none => exact hs
  | some id =>
    refine hs.there.resolve_left fun hthere => ?_
    rw [awaits_some.mpr hthere] at hawaits
    cases hawaits

variable (lasting) in
theorem leads_pass [IsOrderedAddMonoid τ] {sleeper : Option Nat} (h : Steady d) (hb : d.timeline.now ≤ bound)
    (hs : Sleeps sleeper bound d) :
    Leads lasting bound d (Debouncer.pass (routine lasting) sleeper d) ∧
      Settled (Debouncer.pass (routine lasting) sleeper d) ∧
      (Debouncer.pass (routine lasting) sleeper d).timeline.now = bound := by
  fun_induction Debouncer.pass (routine lasting) sleeper d with
  | case1 d settled hstop =>
    obtain ⟨hleads, hsettled, hnow⟩ := leads_settle lasting h hb
    exact ⟨hleads, hsettled, now_of_stop hsettled (hs.after hleads hnow) hstop⟩
  | case2 d settled hgo hn =>
    obtain ⟨hleads, hsettled, hnow⟩ := leads_settle lasting h hb
    refine ⟨hleads, hsettled, ?_⟩
    have hawaits := hsettled.awaits_of_go hgo
    -- The sleeper's own timer is still to ring, so timers cannot have run out.
    have hlive := Timeline.live_eq_nil_of_next? hleads.steady.inTime hn
    cases sleeper with
    | none => cases hawaits
    | some id =>
      obtain ⟨t, ht, hti⟩ := awaits_some.mp hawaits
      have hin := Timeline.mem_live.mpr ⟨ht, ((hleads.awaited id hs).only t ht hti).2⟩
      rw [hlive] at hin
      cases hin
  | case3 d settled hgo alarms timeline hn ih =>
    obtain ⟨hleads, hsettled, hnow⟩ := leads_settle lasting h hb
    have hawaits := hsettled.awaits_of_go hgo
    cases sleeper with
    | none => cases hawaits
    | some id =>
      obtain ⟨rung, hevents, -, hrings, hleast⟩ := Timeline.rings_next? hleads.steady.inTime hn
      obtain ⟨t, ht, hti⟩ := awaits_some.mp hawaits
      obtain ⟨hdue, hc⟩ := (hleads.awaited id hs).only t ht hti
      -- The next timers to ring are due no later than the sleeper's.
      have hbound : timeline.now ≤ bound := hdue ▸ hleast t (Timeline.mem_live.mpr ⟨ht, hc⟩)
      have hrung := leads_rings lasting hleads.steady hsettled.ready hrings hbound
      rw [← hevents] at hrung
      have hready : settled.ready = [] := hsettled.ready
      rw [hready, List.nil_append] at ih ⊢
      have hall := hleads.trans hrung
      obtain ⟨hmore, hdone, hlast⟩ := ih hall.steady hbound (hall.awaited id hs)
      exact ⟨hall.trans hmore, hdone, hlast⟩

variable (lasting) in
/-- Setting the timer of a sleeper records nothing, and from then on the sleeper waits for it. -/
theorem leads_sleep [IsOrderedAddMonoid τ] {stretch : τ} (h : Steady d) (hstretch : 0 ≤ stretch) :
    Leads lasting (d.timeline.now + stretch) d { d with timeline := d.timeline.set stretch .wake } ∧
      Sleeps (some d.timeline.nextId) (d.timeline.now + stretch)
        { d with timeline := d.timeline.set stretch .wake } := by
  constructor
  · refine ⟨h.set hstretch trivial rfl, fun last hl => ?_, List.prefix_rfl, rfl,
      le_add_of_nonneg_right hstretch, fun t _ ht => ?_, fun _ ha => ha.set⟩
    · rw [ledger_set, if_pos hl]
      exact add_zero _
    · rw [(Timeline.live_set d.timeline stretch _).mem_iff, List.mem_cons, or_iff_right]
      rintro rfl
      cases ht
  · refine ⟨Nat.lt_succ_self _, fun t ht hti => ?_, Or.inl ⟨_, Timeline.mem_set.mpr (Or.inr rfl), rfl⟩⟩
    obtain ht | rfl := Timeline.mem_set.mp ht
    · exact absurd hti (Nat.ne_of_lt (h.inTime.known t ht))
    · exact ⟨rfl, rfl⟩

variable (lasting) in
/-- Letting a stretch of time pass goes on to its end. -/
theorem leads_advance [IsOrderedAddMonoid τ] (h : Steady d) (stretch : τ) :
    Leads lasting (d.timeline.now + max stretch 0) d (Debouncer.advance (routine lasting) stretch d) ∧
      Settled (Debouncer.advance (routine lasting) stretch d) ∧
      (Debouncer.advance (routine lasting) stretch d).timeline.now = d.timeline.now + max stretch 0 := by
  unfold Debouncer.advance Debouncer.sleep
  by_cases hover : stretch ≤ 0
  · have hmax : max stretch 0 = 0 := max_eq_right hover
    have hclock : Clock.isOver stretch = true := decide_eq_true hover
    rw [if_pos hclock, hmax, add_zero]
    exact leads_pass lasting h (le_refl _) rfl
  · have hlt := not_le.mp hover
    have hmax : max stretch 0 = stretch := max_eq_left (le_of_lt hlt)
    have hclock : ¬Clock.isOver stretch = true := fun hd => hover (of_decide_eq_true hd)
    rw [if_neg hclock, hmax]
    obtain ⟨hslept, hsleeps⟩ := leads_sleep lasting h (le_of_lt hlt)
    obtain ⟨hmore, hdone, hlast⟩ := leads_pass lasting hslept.steady hslept.now hsleeps
    exact ⟨hslept.trans hmore, hdone, hlast⟩

end Calls
end NodeLink
