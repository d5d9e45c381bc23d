import NodeLink.Value

/-!
# Clocks

What schedules need of times. On the clock of seconds a timer rings as soon as it is less than a billionth
of a second away, and what is no time at all has come already.
-/

namespace NodeLink

class Clock (τ : Type) where
  start : τ
  /-- The time after a delay. -/
  after : τ → τ → τ
  before : τ → τ → Bool
  /-- Whether a pause is over at once. -/
  isOver : τ → Bool
  /-- Whether a time has come, given what time it is now. -/
  hasCome : τ → τ → Bool

/-- The later one of two times. -/
def Clock.later {τ : Type} [Clock τ] (a b : τ) : τ := if before a b then b else a

/-- Seconds. -/
instance : Clock Float where
  start := 0.0
  after now delay := now + delay
  before a b := a < b
  isOver pause := pause ≤ 0.0
  hasCome time now := time ≤ now || !(now + 1e-9 ≤ time)

namespace Json

def delay? (value : Json) : Except Fault Float :=
  match Value.settle (.real 0.0 + .ofJson value) with
  | .ok (.real seconds) => .ok seconds
  | .ok other => .error (.misfit (.measuring other.sort))
  | .error fault => .error fault

/-- A pause in seconds. One that is over at once need not be a delay. -/
def pause? (value : Json) : Except Fault Float := do
  if ← Value.compare .atMost (.ofJson value) (.whole 0) then return 0.0 else value.delay?

end Json
end NodeLink
