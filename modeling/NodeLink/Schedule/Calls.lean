import NodeLink.Schedule.Debouncer

/-!
# Debounced calls

The plainest use of a debouncer: every start is a call with the arguments of the trigger, and all that
happens is put on record. A call is over at once, or it lasts for some time and ends by itself.
-/

namespace NodeLink

inductive Moment where
  | atOnce
  | start
  | finish
  deriving DecidableEq, Repr

/-- What happened at a time with the call of the given arguments. -/
structure CallRecord (τ α : Type) where
  time : τ
  moment : Moment
  arguments : α
  deriving Repr

/-- A call begins or ends. -/
inductive CallPhase (α : Type) where
  | begin (arguments : α)
  | finish (arguments : α)
  deriving Repr

namespace Calls

variable {τ α : Type}

/-- A call puts itself on record. If calls last, each is put on record at both ends; one that should last
for what is no time never gets to its end. -/
def step (lasting : Option (Except Fault τ)) (now : τ) (phase : CallPhase α)
    (records : List (CallRecord τ α)) : List (CallRecord τ α) × Option (τ × CallPhase α) :=
  match phase, lasting with
  | .begin arguments, none => (records ++ [⟨now, .atOnce, arguments⟩], none)
  | .begin arguments, some (.ok pause) =>
    (records ++ [⟨now, .start, arguments⟩], some (pause, .finish arguments))
  | .begin arguments, some (.error _) => (records ++ [⟨now, .start, arguments⟩], none)
  | .finish arguments, _ => (records ++ [⟨now, .finish, arguments⟩], none)

def rank : CallPhase α → Nat
  | .begin _ => 1
  | .finish _ => 0

theorem rank_step (lasting : Option (Except Fault τ)) (now : τ) (phase : CallPhase α)
    (records : List (CallRecord τ α)) (pause : τ) (later : CallPhase α)
    (h : (step lasting now phase records).2 = some (pause, later)) : rank later < rank phase := by
  unfold step at h
  split at h <;> simp at h
  obtain ⟨_, rfl⟩ := h
  simp [rank]

/-- The routine of calls that last for the given time, or are over at once. -/
def routine (lasting : Option (Except Fault τ)) : Routine τ (CallPhase α) (List (CallRecord τ α)) where
  step := step lasting
  rank := rank
  rank_step := rank_step lasting

/-- A debouncer that puts its calls on record. -/
def debouncer [Clock τ] (delay : Except Fault τ) : Debouncer τ (CallPhase α) (List (CallRecord τ α)) where
  delay := delay
  timeline := { now := Clock.start }
  state := []

end Calls
end NodeLink
