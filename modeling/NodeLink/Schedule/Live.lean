import NodeLink.Schedule.Debouncer
import NodeLink.Pipeline

/-!
# Live results

A text changes again and again, and after every quiet period its result is computed anew and handed over,
at once or after a while. What fails is noticed and has no effect on what comes later.
-/

namespace NodeLink

/-- What went wrong: the class of failures and the wording. -/
structure Failure where
  label : String
  message : String
  deriving DecidableEq, Repr

def Failure.ofFault (f : Fault) : Failure := ⟨f.label, f.message⟩

def Failure.notice (f : Failure) : Notice := .recomputeFailed f.label f.message

namespace Live

/-- What computing a result comes to. -/
structure Computed (σ ρ : Type) where
  world : σ
  notices : List Notice
  result : Except Failure ρ

/-- How results are computed from texts and handed over. Computing uses and changes a world. Handing over
takes the given time, if any; what is no time keeps a result from being handed over. -/
structure Worker (τ σ ρ : Type) where
  compute : σ → Json → Computed σ ρ
  handOver : ρ → Except Failure Unit
  delivering : Option (Except Failure τ)

/-- A text is to be computed; a result is to be handed over. -/
inductive Phase (ρ : Type) where
  | compute (text : Json)
  | handOver (result : ρ)

/-- The world, the last result, the results that were offered, those of them that were handed over, the
notices, and the failures that have left a computation. -/
structure State (σ ρ : Type) where
  world : σ
  last : Option ρ := none
  offered : List ρ := []
  delivered : List ρ := []
  notices : List Notice := []
  escaped : List Failure := []

variable {τ σ ρ : Type}

namespace State

def noting (s : State σ ρ) (notices : List Notice) : State σ ρ := { s with notices := s.notices ++ notices }

/-- Hands a result over, which may fail. -/
def handOver (w : Worker τ σ ρ) (s : State σ ρ) (result : ρ) : State σ ρ × Except Failure Unit :=
  match w.handOver result with
  | .ok () => ({ s with delivered := s.delivered ++ [result] }, .ok ())
  | .error failure => (s, .error failure)

/-- Takes a result, if there is one, and offers it: it is handed over, or is to be after a pause. -/
def take (w : Worker τ σ ρ) (s : State σ ρ) :
    Except Failure ρ → State σ ρ × Except Failure (Option (τ × Phase ρ))
  | .error failure => (s, .error failure)
  | .ok result =>
    let s := { s with last := some result, offered := s.offered ++ [result] }
    match w.delivering with
    | none =>
      let (s, done) := s.handOver w result
      (s, done.map fun _ => none)
    | some (.ok pause) => (s, .ok (some (pause, .handOver result)))
    | some (.error failure) => (s, .error failure)

/-- Notices a failure, which ends a computation like its success. -/
def contain (s : State σ ρ) :
    Except Failure (Option (τ × Phase ρ)) → State σ ρ × Except Failure (Option (τ × Phase ρ))
  | .ok later => (s, .ok later)
  | .error failure => (s.noting [failure.notice], .ok none)

/-- Leaves a phase of a computation. A failure that gets here is out of hand. -/
def leave (s : State σ ρ) : Except Failure (Option (τ × Phase ρ)) → State σ ρ × Option (τ × Phase ρ)
  | .ok later => (s, later)
  | .error failure => ({ s with escaped := s.escaped ++ [failure] }, none)

/-- Begins to compute a result anew: the state that the world is left in, and what comes of it. -/
def begin (w : Worker τ σ ρ) (s : State σ ρ) (text : Json) : State σ ρ × Except Failure ρ :=
  let c := w.compute s.world text
  ({ s.noting c.notices with world := c.world }, c.result)

/-- Ends the computation of a result. -/
def finish (w : Worker τ σ ρ) (s : State σ ρ) (result : Except Failure ρ) :
    State σ ρ × Option (τ × Phase ρ) :=
  let (s, done) := s.take w result
  let (s, done) := s.contain done
  s.leave done

/-- Goes on with a result that was offered. -/
def resume (w : Worker τ σ ρ) (s : State σ ρ) (result : ρ) : State σ ρ × Option (τ × Phase ρ) :=
  let (s, done) := s.handOver w result
  let (s, done) := s.contain (done.map fun _ => none)
  s.leave done

end State

/-- One phase of computing a result anew. Nothing is waited for between its beginning and its end. -/
def step (w : Worker τ σ ρ) (phase : Phase ρ) (s : State σ ρ) : State σ ρ × Option (τ × Phase ρ) :=
  match phase with
  | .compute text =>
    let (s, result) := s.begin w text
    s.finish w result
  | .handOver result => s.resume w result

def rank : Phase ρ → Nat
  | .compute _ => 1
  | .handOver _ => 0

/-- A computation that goes on after its end has still to hand over its result. -/
theorem later_of_finish (w : Worker τ σ ρ) (s : State σ ρ) (result : Except Failure ρ) (pause : τ)
    (later : Phase ρ) (h : (s.finish w result).2 = some (pause, later)) : ∃ result, later = .handOver result := by
  cases result with
  | error failure => nomatch h
  | ok result =>
    simp only [State.finish, State.take, State.handOver] at h
    cases hd : w.delivering with
    | none =>
      rw [hd] at h
      cases ho : w.handOver result <;> rw [ho] at h <;> cases h
    | some delivering =>
      rw [hd] at h
      cases delivering <;> cases h
      exact ⟨result, rfl⟩

theorem resume_ends (w : Worker τ σ ρ) (s : State σ ρ) (result : ρ) : (s.resume w result).2 = none := by
  simp only [State.resume, State.handOver]
  cases w.handOver result <;> rfl

theorem rank_step (w : Worker τ σ ρ) (phase : Phase ρ) (s : State σ ρ) (pause : τ) (later : Phase ρ)
    (h : (step w phase s).2 = some (pause, later)) : rank later < rank phase := by
  cases phase with
  | compute text =>
    obtain ⟨result, rfl⟩ := later_of_finish w _ _ pause later h
    exact Nat.zero_lt_one
  | handOver result =>
    rw [step, resume_ends] at h
    cases h

def routine (w : Worker τ σ ρ) : Routine τ (Phase ρ) (State σ ρ) where
  step _ := step w
  rank := rank
  rank_step _ := rank_step w

/-- A debouncer whose routine computes results. -/
abbrev Diagram (τ σ ρ : Type) := Debouncer τ (Phase ρ) (State σ ρ)

namespace Diagram

variable [Clock τ]

def start (delay : Except Fault τ) (world : σ) : Diagram τ σ ρ where
  delay := delay
  timeline := { now := Clock.start }
  state := { world := world }

/-- Takes note of a new text. -/
def notify (d : Diagram τ σ ρ) (text : Json) : Except Fault (Diagram τ σ ρ) := d.trigger (.compute text)

end Diagram

/-- The computation of pictures; its world is the number of random numbers used. -/
def computePicture (w : Pipeline.World) (settings : Pipeline.Settings) (draws : Nat) (text : Json) :
    Computed Nat Pipeline.Picture :=
  let outcome := Pipeline.run w settings draws text
  { world := outcome.draws, notices := outcome.notices, result := outcome.result.mapError Failure.ofFault }

end Live
end NodeLink
