import NodeLink.Schedule.Timeline

/-!
# Debouncing

A debouncer starts a routine once a delay has passed since it was last triggered. Every trigger takes the
place of the one that is pending, and a pending one can be cancelled. A routine that has started goes on
from phase to phase, with pauses in between, and nothing interrupts it. What is to be done at one time is
done in the order in which it came up; a visit is left to whoever lets time pass.
-/

namespace NodeLink

/-- What a routine does: one phase works on a state, and then the routine is over or goes on with another
phase after a pause. Every further phase has a smaller rank, so a routine ends. -/
structure Routine (τ φ σ : Type) where
  step : τ → φ → σ → σ × Option (τ × φ)
  rank : φ → Nat
  rank_step : ∀ now phase state pause later,
    (step now phase state).2 = some (pause, later) → rank later < rank phase

/-- What a timer stands for: a routine starts with a phase, the routine of a number goes on with one, whoever
lets time pass is woken, or a visit is due. -/
inductive Alarm (φ : Type) where
  | start (phase : φ)
  | resume (routine : Nat) (phase : φ)
  | wake
  | visit
  deriving Repr

/-- What is to be done now: an alarm rings, the routine of a number goes through a phase, or a visit is paid. -/
inductive Task (φ : Type) where
  | ring (alarm : Alarm φ)
  | run (routine : Nat) (phase : φ)
  | visit
  deriving Repr

def Alarm.isOf {φ : Type} (routine : Nat) : Alarm φ → Bool
  | .resume n _ => n == routine
  | _ => false

/-- Whether a task is about the routine of a number. -/
def Task.isOf {φ : Type} (routine : Nat) : Task φ → Bool
  | .ring alarm => alarm.isOf routine
  | .run n _ => n == routine
  | .visit => false

def Task.isVisit {φ : Type} : Task φ → Bool
  | .visit => true
  | _ => false

structure Debouncer (τ φ σ : Type) where
  delay : Except Fault τ
  timeline : Timeline τ (Alarm φ)
  /-- What is to be done before any time passes. -/
  ready : List (Task φ) := []
  /-- The timer of the pending trigger. -/
  handle : Option Nat := none
  /-- How many routines have started. -/
  started : Nat := 0
  state : σ

namespace Debouncer

variable {τ φ σ : Type}

def pending (d : Debouncer τ φ σ) : Bool := d.handle.isSome

def cancel (d : Debouncer τ φ σ) : Debouncer τ φ σ :=
  match d.handle with
  | none => d
  | some id => { d with handle := none, timeline := d.timeline.cancel id }

/-- Whether a visit is to be done next. -/
def isVisited (d : Debouncer τ φ σ) : Bool := (d.ready.head?.map Task.isVisit).getD false

variable [Clock τ]

/-- Lets a routine start with the given phase after the delay, in the place of the pending one. -/
def trigger (d : Debouncer τ φ σ) (phase : φ) : Except Fault (Debouncer τ φ σ) := do
  let delay ← d.delay
  let d := d.cancel
  return { d with handle := some d.timeline.nextId, timeline := d.timeline.set delay (.start phase) }

def goOn (d : Debouncer τ φ σ) (pause : τ) (routine : Nat) (phase : φ) : Debouncer τ φ σ :=
  if Clock.isOver pause then { d with ready := d.ready ++ [.run routine phase] }
  else { d with timeline := d.timeline.set pause (.resume routine phase) }

def runPhase (r : Routine τ φ σ) (d : Debouncer τ φ σ) (routine : Nat) (phase : φ) : Debouncer τ φ σ :=
  match r.step d.timeline.now phase d.state with
  | (state, none) => { d with state := state }
  | (state, some (pause, later)) => goOn { d with state := state } pause routine later

def perform (r : Routine τ φ σ) (d : Debouncer τ φ σ) : Task φ → Debouncer τ φ σ
  | .ring (.start phase) =>
    { d with handle := none, started := d.started + 1, ready := d.ready ++ [.run d.started phase] }
  | .ring (.resume routine phase) => { d with ready := d.ready ++ [.run routine phase] }
  | .ring .wake => d
  | .ring .visit => { d with ready := d.ready ++ [.visit] }
  | .run routine phase => runPhase r d routine phase
  | .visit => d

/-! ### What is left to be done -/

def alarmCost (r : Routine τ φ σ) : Alarm φ → Nat
  | .start phase => 4 * r.rank phase + 2
  | .resume _ phase => 4 * r.rank phase + 2
  | .wake => 2
  | .visit => 2

def taskCost (r : Routine τ φ σ) : Task φ → Nat
  | .ring alarm => alarmCost r alarm
  | .run _ phase => 4 * r.rank phase + 1
  | .visit => 1

/-- A bound for what may still come of tasks and timers. -/
def work (r : Routine τ φ σ) (d : Debouncer τ φ σ) : Nat :=
  Timeline.weigh (taskCost r) d.ready + Timeline.weight (alarmCost r) d.timeline.timers

theorem work_goOn (r : Routine τ φ σ) (d : Debouncer τ φ σ) (pause : τ) (routine : Nat) (phase : φ) :
    work r (goOn d pause routine phase) ≤ work r d + 4 * r.rank phase + 3 := by
  unfold goOn
  split
  · simp only [work, Timeline.weigh_append, Timeline.weigh_cons, Timeline.weigh_nil, taskCost]
    omega
  · simp only [work, Timeline.weight_set, alarmCost]
    omega

/-- Doing a task takes its cost away and brings less. -/
theorem work_perform (r : Routine τ φ σ) (d : Debouncer τ φ σ) (task : Task φ) :
    work r (perform r d task) < work r d + taskCost r task := by
  cases task with
  | ring alarm =>
    cases alarm <;>
      simp only [perform, work, taskCost, alarmCost, Timeline.weigh_append, Timeline.weigh_cons,
        Timeline.weigh_nil] <;> omega
  | run routine phase =>
    simp only [perform, runPhase, taskCost]
    split
    · simp only [work]; omega
    · rename_i state pause later h
      have hr := r.rank_step d.timeline.now phase d.state pause later (by rw [h])
      have hg := work_goOn r { d with state := state } pause routine later
      simp only [work] at hg ⊢
      omega
  | visit => simp only [perform, taskCost]; omega

omit [Clock τ] in
theorem weigh_ring (r : Routine τ φ σ) (alarms : List (Alarm φ)) :
    Timeline.weigh (taskCost r) (alarms.map Task.ring) = Timeline.weigh (alarmCost r) alarms := by
  induction alarms with
  | nil => rfl
  | cons alarm alarms ih => rw [List.map_cons, Timeline.weigh_cons, Timeline.weigh_cons, ih, taskCost]

/-- Does everything that is to be done now, up to a visit. -/
def settle (r : Routine τ φ σ) (d : Debouncer τ φ σ) : Debouncer τ φ σ :=
  match _ready : d.ready with
  | [] =>
    match _due : d.timeline.due with
    | ([], timeline) => { d with timeline := timeline }
    | (alarm :: alarms, timeline) =>
      settle r { d with ready := (alarm :: alarms).map .ring, timeline := timeline }
  | task :: rest => if task.isVisit then d else settle r (perform r { d with ready := rest } task)
termination_by work r d
decreasing_by
  · have h := Timeline.weight_due (alarmCost r) d.timeline
    rw [_due] at h
    simp only [work, weigh_ring, _ready]
    simp only [List.length_cons] at h
    simp only [Timeline.weigh_nil]
    omega
  · have h := work_perform r { d with ready := rest } task
    refine Nat.lt_of_lt_of_le h ?_
    simp only [work, _ready, Timeline.weigh_cons]
    omega

theorem work_settle (r : Routine τ φ σ) (d : Debouncer τ φ σ) : work r (settle r d) ≤ work r d := by
  fun_induction settle r d with
  | case1 d hr timeline hd =>
    have h := Timeline.weight_due (alarmCost r) d.timeline
    rw [hd] at h
    simp only [work]
    simp only [Timeline.weigh_nil, List.length_nil] at h
    omega
  | case2 d hr alarm alarms timeline hd ih =>
    refine Nat.le_trans ih ?_
    have h := Timeline.weight_due (alarmCost r) d.timeline
    rw [hd] at h
    simp only [work, weigh_ring, hr, Timeline.weigh_nil]
    simp only at h
    omega
  | case3 => exact Nat.le_refl _
  | case4 d task rest hr _ ih =>
    refine Nat.le_trans ih (Nat.le_trans (Nat.le_of_lt (work_perform r { d with ready := rest } task)) ?_)
    simp only [work, hr, Timeline.weigh_cons]
    omega

/-- Whether time has to pass until the timer of the one who waits rings, if there is one. -/
def awaits (d : Debouncer τ φ σ) (sleeper : Option Nat) : Bool := (sleeper.map d.timeline.holds).getD false

/-- Lets time pass until the sleeper's timer has rung, up to a visit. -/
def pass (r : Routine τ φ σ) (sleeper : Option Nat) (d : Debouncer τ φ σ) : Debouncer τ φ σ :=
  let settled := settle r d
  if settled.isVisited || !settled.awaits sleeper then settled
  else match _next : settled.timeline.next? with
    | none => settled
    | some (alarms, timeline) =>
      pass r sleeper { settled with ready := settled.ready ++ alarms.map .ring, timeline := timeline }
termination_by work r d
decreasing_by
  have h := Timeline.weight_next? (alarmCost r) _next
  simp only [settled] at h
  have hs := work_settle r d
  simp only [work, Timeline.weigh_append, weigh_ring] at hs ⊢
  omega

/-- Sets a timer for whoever lets a stretch of time pass; no time at all needs none. -/
def sleep (stretch : τ) (d : Debouncer τ φ σ) : Debouncer τ φ σ × Option Nat :=
  if Clock.isOver stretch then (d, none)
  else ({ d with timeline := d.timeline.set stretch .wake }, some d.timeline.nextId)

/-- Lets a stretch of time pass, up to a visit. -/
def advance (r : Routine τ φ σ) (stretch : τ) (d : Debouncer τ φ σ) : Debouncer τ φ σ :=
  let (d, sleeper) := d.sleep stretch
  pass r sleeper d

/-- Whether the routine of a number has not come to its end. -/
def isUnderWay (d : Debouncer τ φ σ) (routine : Nat) : Bool :=
  d.ready.any (Task.isOf routine) || d.timeline.timers.any fun t => t.event.isOf routine

/-- How the routine that started last is doing. -/
inductive Progress where
  | idle
  | running
  | done
  deriving DecidableEq, Repr

/-- Whether a routine has started yet, and if so, whether the last one is over. -/
def progress (d : Debouncer τ φ σ) : Progress :=
  if d.started = 0 then .idle else if d.isUnderWay (d.started - 1) then .running else .done

end Debouncer
end NodeLink
