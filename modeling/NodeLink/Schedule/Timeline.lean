import NodeLink.Schedule.Clock
import NodeLink.Schedule.Heap

/-!
# Timelines

A timeline holds what is to happen and when. Its timers lie in a heap; one that is cancelled stays there
until it comes to the top, or until most of many timers are cancelled. Time passes only by going on to the
next timer.
-/

namespace NodeLink

/-- Something that is to happen at a time, with a number of its own. -/
structure Timer (τ ε : Type) where
  id : Nat
  due : τ
  event : ε
  cancelled : Bool := false
  deriving Repr

structure Timeline (τ ε : Type) where
  now : τ
  /-- The number of the next timer. All timers have smaller ones. -/
  nextId : Nat := 0
  timers : Array (Timer τ ε) := #[]
  deriving Repr

namespace Timeline

variable {τ ε : Type} [Clock τ]

def isBefore (t u : Timer τ ε) : Bool := Clock.before t.due u.due

def set (l : Timeline τ ε) (delay : τ) (event : ε) : Timeline τ ε :=
  { l with nextId := l.nextId + 1,
           timers := Heap.push isBefore l.timers { id := l.nextId, due := Clock.after l.now delay, event } }

def cancelled (id : Nat) (t : Timer τ ε) : Timer τ ε := if t.id = id then { t with cancelled := true } else t

def cancel (l : Timeline τ ε) (id : Nat) : Timeline τ ε := { l with timers := l.timers.map (cancelled id) }

def holds (l : Timeline τ ε) (id : Nat) : Bool := l.timers.any fun t => t.id == id

theorem size_pop? {timers rest : Array (Timer τ ε)} {t : Timer τ ε}
    (h : Heap.pop? isBefore timers = some (t, rest)) : rest.size < timers.size := by
  have := (Heap.pop?_perm isBefore h).size_eq
  simp at this
  omega

/-- Takes cancelled timers away from the top. -/
def clearTop (timers : Array (Timer τ ε)) : Array (Timer τ ε) :=
  match _h : Heap.pop? isBefore timers with
  | none => timers
  | some (t, rest) => if t.cancelled then clearTop rest else timers
termination_by timers.size
decreasing_by exact size_pop? _h

/-- The number of timers up to which cancelled ones are left where they are. -/
def crowd : Nat := 100

/-- Whether there are many timers and most of them are cancelled. -/
def isCluttered (timers : Array (Timer τ ε)) : Bool :=
  crowd < timers.size && timers.size < 2 * timers.countP (·.cancelled)

/-- Takes cancelled timers away: all of them where they clutter the heap, else those at the top. -/
def clear (timers : Array (Timer τ ε)) : Array (Timer τ ε) :=
  if isCluttered timers then Heap.ofArray isBefore (timers.filter (!·.cancelled)) else clearTop timers

/-- Takes the timers out whose time has come. -/
def takeDue (now : τ) (timers : Array (Timer τ ε)) : List (Timer τ ε) × Array (Timer τ ε) :=
  match _h : Heap.pop? isBefore timers with
  | none => ([], timers)
  | some (t, rest) =>
    if Clock.hasCome t.due now then
      let (more, rest) := takeDue now rest
      (t :: more, rest)
    else ([], timers)
termination_by timers.size
decreasing_by exact size_pop? _h

/-- What those of some timers stand for that are not cancelled. -/
def events (timers : List (Timer τ ε)) : List ε := (timers.filter (!·.cancelled)).map (·.event)

/-- What is due now, and the timeline without it. -/
def due (l : Timeline τ ε) : List ε × Timeline τ ε :=
  let (timers, rest) := takeDue l.now (clear l.timers)
  (events timers, { l with timers := rest })

/-- Goes on to the time of the next timer: what is due then, and the timeline without it. -/
def next? (l : Timeline τ ε) : Option (List ε × Timeline τ ε) :=
  match Heap.pop? isBefore (clear l.timers) with
  | none => none
  | some (t, rest) =>
    let now := Clock.later l.now t.due
    let (timers, rest) := takeDue now rest
    some (events (t :: timers), { l with now := now, timers := rest })

/-! ### Weights -/

variable (cost : ε → Nat)

/-- What the items of a list weigh together. -/
def weigh {α : Type} (cost : α → Nat) : List α → Nat
  | [] => 0
  | a :: as => cost a + weigh cost as

@[simp] theorem weigh_nil {α : Type} (cost : α → Nat) : weigh cost [] = 0 := rfl

@[simp] theorem weigh_cons {α : Type} (cost : α → Nat) (a : α) (as : List α) :
    weigh cost (a :: as) = cost a + weigh cost as := rfl

@[simp] theorem weigh_append {α : Type} (cost : α → Nat) (as bs : List α) :
    weigh cost (as ++ bs) = weigh cost as + weigh cost bs := by
  induction as with
  | nil => simp
  | cons a as ih =>
    simp only [List.cons_append, weigh_cons, ih]
    omega

theorem weigh_perm {α : Type} (cost : α → Nat) {as bs : List α} (h : as.Perm bs) :
    weigh cost as = weigh cost bs := by
  induction h with
  | nil => rfl
  | cons a _ ih => rw [weigh_cons, weigh_cons, ih]
  | swap a b as =>
    simp only [weigh_cons]
    omega
  | trans _ _ ih ih' => exact ih.trans ih'

theorem weigh_filter_le {α : Type} (cost : α → Nat) (p : α → Bool) (as : List α) :
    weigh cost (as.filter p) ≤ weigh cost as := by
  induction as with
  | nil => exact Nat.le_refl _
  | cons a as ih =>
    rw [List.filter_cons]
    split <;> simp only [weigh_cons] <;> omega

/-- A timer weighs one more than what it stands for. -/
def timerCost (t : Timer τ ε) : Nat := cost t.event + 1

def weight (timers : Array (Timer τ ε)) : Nat := weigh (timerCost cost) timers.toList

omit [Clock τ] in
theorem weight_perm {timers timers' : Array (Timer τ ε)} (h : timers.Perm timers') :
    weight cost timers = weight cost timers' :=
  weigh_perm _ h.toList

omit [Clock τ] in
theorem weight_push (timers : Array (Timer τ ε)) (t : Timer τ ε) :
    weight cost (timers.push t) = weight cost timers + (cost t.event + 1) := by
  simp [weight, timerCost]

theorem weight_set (l : Timeline τ ε) (delay : τ) (event : ε) :
    weight cost (l.set delay event).timers = weight cost l.timers + (cost event + 1) := by
  simp only [set]
  rw [weight_perm cost (Heap.push_perm _ _ _), weight_push]

theorem weight_pop? {timers rest : Array (Timer τ ε)} {t : Timer τ ε}
    (h : Heap.pop? isBefore timers = some (t, rest)) :
    weight cost timers = weight cost rest + (cost t.event + 1) := by
  rw [← weight_perm cost (Heap.pop?_perm isBefore h), weight_push]

theorem weight_clearTop (timers : Array (Timer τ ε)) : weight cost (clearTop timers) ≤ weight cost timers := by
  fun_induction clearTop timers with
  | case1 => exact Nat.le_refl _
  | case2 timers t rest h _ ih => have := weight_pop? cost h; omega
  | case3 => exact Nat.le_refl _

theorem weight_clear (timers : Array (Timer τ ε)) : weight cost (clear timers) ≤ weight cost timers := by
  unfold clear
  split
  · rw [weight_perm cost (Heap.ofArray_perm _ _)]
    simp only [weight, Array.toList_filter]
    exact weigh_filter_le _ _ _
  · exact weight_clearTop cost timers

theorem weight_takeDue (now : τ) (timers : Array (Timer τ ε)) :
    weigh (timerCost cost) (takeDue now timers).1 + weight cost (takeDue now timers).2 =
      weight cost timers := by
  fun_induction takeDue now timers with
  | case1 => simp
  | case2 timers t rest h _ more rest' heq ih =>
    have := weight_pop? cost h
    simp only [weigh_cons, timerCost]
    simp only [heq] at ih
    omega
  | case3 => simp

omit [Clock τ] in
theorem weigh_events (timers : List (Timer τ ε)) :
    weigh cost (events timers) + (events timers).length ≤ weigh (timerCost cost) timers := by
  unfold events
  induction timers with
  | nil => exact Nat.le_refl _
  | cons t ts ih =>
    rw [List.filter_cons]
    split <;> simp only [List.map_cons, weigh_cons, List.length_cons, timerCost] <;> omega

/-- What is due weighs less than its timers did. -/
theorem weight_due (l : Timeline τ ε) :
    weigh cost l.due.1 + l.due.1.length + weight cost l.due.2.timers ≤ weight cost l.timers := by
  have h₁ := weight_clear cost l.timers
  have h₂ := weight_takeDue cost l.now (clear l.timers)
  have h₃ := weigh_events cost (takeDue l.now (clear l.timers)).1
  simp only [due]
  omega

/-- Going on to the next timer takes weight away. -/
theorem weight_next? {l l' : Timeline τ ε} {found : List ε} (h : l.next? = some (found, l')) :
    weigh cost found + weight cost l'.timers < weight cost l.timers := by
  unfold next? at h
  split at h
  · simp at h
  · rename_i t rest hp
    simp only [Option.some.injEq, Prod.mk.injEq] at h
    obtain ⟨rfl, rfl⟩ := h
    have h₁ := weight_clear cost l.timers
    have h₂ := weight_pop? cost hp
    have h₃ := weight_takeDue cost (Clock.later l.now t.due) rest
    have h₄ := weigh_events cost (t :: (takeDue (Clock.later l.now t.due) rest).1)
    simp only [weigh_cons, timerCost] at h₄
    by_cases he : events (t :: (takeDue (Clock.later l.now t.due) rest).1) = []
    · simp only [he, weigh_nil]; omega
    · have := List.length_pos_iff.mpr he
      simp only
      omega

end Timeline
end NodeLink
